import Syrotp.Server.Edge
import Syrotp.Server.Proofs.AdminAuth
import Syrotp.Server.Proofs.RateBound

/-!
# What the edge lets through

Each request's history is told from the log: which limits it passed and what its door saw of it. The
checks of the limits are those of a rate limiter, so that they are counted as its checks are.
-/

namespace Syrotp

abbrev EdgeLog := List (Edge × Act EdgeArrival EdgeMove)

variable {E : EdgeService} {s t : Edge} {log : EdgeLog}

/-! ## Buckets -/

/-- No key starts like one of another family. -/
theorem keyStart_prefixFree : ∀ f g : BucketFamily,
    f.keyStart.isPrefixOf g.keyStart = true → f = g := by
  intro f g
  cases f <;> cases g <;> decide

theorem bucket_key_inj {L : RateLimits} {b b' : Bucket}
    (same : (b.request L).key = (b'.request L).key) : b = b' := by
  obtain ⟨f, owner⟩ := b
  obtain ⟨g, owner'⟩ := b'
  have same : f.keyStart ++ owner = g.keyStart ++ owner' := same
  have family : f = g := by
    rcases List.append_eq_append_iff.mp same with ⟨rest, longer, _⟩ | ⟨rest, longer, _⟩
    · apply keyStart_prefixFree
      rw [longer, List.isPrefixOf_iff_prefix]
      exact List.prefix_append _ _
    · apply Eq.symm
      apply keyStart_prefixFree
      rw [longer, List.isPrefixOf_iff_prefix]
      exact List.prefix_append _ _
  subst family
  rw [List.append_cancel_left same]

theorem windowSeconds_pos (f : BucketFamily) : 0 < f.windowSeconds := by
  cases f <;> decide

/-! ## The checks of a log -/

/-- The limit that a call checks next. -/
def EdgePhase.bucket? : EdgePhase → Option Bucket
  | .before (b :: _) | .behind _ (b :: _) => some b
  | _ => none

def EdgeCall.bucket? : EdgeCall → Option Bucket
  | .serve _ phase => phase.bucket?
  | .write .. => none

/-- When an operation takes effect. -/
def EdgeMove.time? : EdgeMove → Option Time
  | .run now _ _ => some now
  | .lost now => some now
  | .error => none

/-- When a pipeline is executed, and when its answer is there. -/
def EdgeMove.counted? : EdgeMove → Option (Time × Time)
  | .run now later .counted => some (now, later)
  | .lost now => some (now, now)
  | _ => none

/-- The check that a logged turn makes in Redis. -/
def edgeCheck (e : Edge × Act EdgeArrival EdgeMove) : Option (Bucket × Time × Time) :=
  match e.2 with
  | .arrive _ => none
  | .turn i m =>
    match e.1.calls[i]?.bind (·.bucket?), m.counted? with
    | some b, some t => some (b, t)
    | _, _ => none

/-- Whether it is one of this limit. -/
def checksLimit (b : Bucket) (e : Edge × Act EdgeArrival EdgeMove) : Bool :=
  (edgeCheck e).any fun c => c.1 = b

def checkTime (e : Edge × Act EdgeArrival EdgeMove) : Time := (edgeCheck e).elim 0 (·.2.1)

/-- Whether Redis gives it a number with which it passes, and the request hears of it. -/
def passesCounted (E : EdgeService) (b : Bucket) (e : Edge × Act EdgeArrival EdgeMove) : Bool :=
  match e.2 with
  | .turn _ (.run now later .counted) =>
    checksLimit b e && (b.check E.limits e.1.store.redis now later .counted).1.allowed
  | _ => false

/-- Whether a logged turn passes this limit, whatever Redis answers. -/
def passesLimit (E : EdgeService) (b : Bucket) (e : Edge × Act EdgeArrival EdgeMove) : Bool :=
  match e.2 with
  | .turn i (.run now later answer) => e.1.calls[i]?.bind (·.bucket?) = some b &&
      (b.check E.limits e.1.store.redis now later answer).1.allowed
  | _ => false

/-- Whether it checks the limit without a number: Redis aborts the pipeline or has an error in the
place of the count. -/
def failsOpen (b : Bucket) (e : Edge × Act EdgeArrival EdgeMove) : Bool :=
  match e.2 with
  | .turn i (.run _ _ answer) => e.1.calls[i]?.bind (·.bucket?) = some b && answer ≠ .counted
  | _ => false

/-- When a logged turn takes effect. -/
def turnTime (e : Edge × Act EdgeArrival EdgeMove) : Time :=
  match e.2 with
  | .turn _ m => m.time?.getD 0
  | .arrive _ => 0

/-! ## The rate limiter behind the edge -/

def Edge.rate (s : Edge) : RateLimiter := ⟨s.store.now, s.store.redis⟩

/-- What a logged step is for the rate limiter. -/
def rateEntries (E : EdgeService) (e : Edge × Act EdgeArrival EdgeMove) : RateLog :=
  match e.2 with
  | .arrive _ => []
  | .turn _ m =>
    match m.time? with
    | none => []
    | some now => (e.1.rate, .tick (now - e.1.store.now)) ::
        match edgeCheck e with
        | none => []
        | some (b, _, later) => [(⟨now, e.1.store.redis⟩, .rateCheck (b.request E.limits) later)]

section

variable {d : EdgeStore} {req : EdgeRequest} {phase phase' : EdgePhase} {now later : Time}
  {answer : RedisAnswer} {r : EdgePhase × EdgeStore}

theorem rateCheck_store {b : Bucket} {passed : EdgePhase} :
    (EdgeRequest.rateCheck E d now later answer b passed).2.now = now ∧
      (EdgeRequest.rateCheck E d now later answer b passed).2.redis =
        (b.check E.limits d.redis now later answer).2 := ⟨rfl, rfl⟩

/-- What an operation does to the clock and the counters. -/
theorem operation_rate (h : req.operation E d now later answer phase = some r) :
    r.2.now = now ∧ r.2.redis =
      (match phase.bucket? with
        | some b => (b.check E.limits d.redis now later answer).2
        | none => d.redis) := by
  cases phase with
  | before bs =>
    cases bs with
    | nil => cases h
    | cons b rest =>
      cases h
      exact rateCheck_store
  | behind p bs =>
    cases bs with
    | nil => cases h
    | cons b rest =>
      cases h
      exact rateCheck_store
  | select raw kind =>
    cases h
    exact ⟨rfl, rfl⟩
  | hmac input phase =>
    simp only [EdgeRequest.operation, Option.map_eq_some_iff] at h
    obtain ⟨_, _, rfl⟩ := h
    exact ⟨rfl, rfl⟩
  | password username password =>
    cases h
    exact ⟨rfl, rfl⟩
  | handler p => cases h
  | refused e => cases h
  | challenged => cases h
  | limited b retry => cases h
  | failed => cases h

/-- A turn takes one operation, or none. -/
theorem edge_turn_cases {c : EdgeCall} {m : EdgeMove} {u : Turn EdgeStore EdgeCall}
    (h : c.turn E d m = some u) :
    (∃ req phase now later answer r, c = .serve req phase ∧ m = .run now later answer ∧
        d.now ≤ now ∧ now ≤ later ∧ req.operation E d now later answer phase = some r ∧
        u = ⟨r.2, .serve req r.1, []⟩) ∨
      (∃ req phase now r, c = .serve req phase ∧ m = .lost now ∧ d.now ≤ now ∧
        req.operation E d now now .counted phase = some r ∧ u = ⟨r.2, .serve req .failed, []⟩) ∨
      (∃ req phase, c = .serve req phase ∧ m = .error ∧ u = ⟨d, .serve req .failed, []⟩) ∨
      ∃ keys receivers now later answer, c = .write keys receivers false ∧
        m = .run now later answer ∧ d.now ≤ now ∧
        u = ⟨⟨⟨now, receivers, d.gateway.nonces⟩, d.redis, keys⟩, .write keys receivers true, []⟩ := by
  cases c with
  | serve req phase =>
    cases m with
    | run now later answer =>
      simp only [EdgeCall.turn, Option.ite_none_left_eq_some, Option.map_eq_some_iff, not_or,
        Nat.not_lt] at h
      obtain ⟨⟨started, answered⟩, r, hr, rfl⟩ := h
      exact .inl ⟨req, phase, now, later, answer, r, rfl, rfl, started, answered, hr, rfl⟩
    | error =>
      simp only [EdgeCall.turn, Option.map_eq_some_iff] at h
      obtain ⟨r, _, rfl⟩ := h
      exact .inr (.inr (.inl ⟨req, phase, rfl, rfl, rfl⟩))
    | lost now =>
      simp only [EdgeCall.turn, Option.ite_none_left_eq_some, Option.map_eq_some_iff,
        Nat.not_lt] at h
      obtain ⟨started, r, hr, rfl⟩ := h
      exact .inr (.inl ⟨req, phase, now, r, rfl, rfl, started, hr, rfl⟩)
  | write keys receivers isDone =>
    cases isDone with
    | true => cases m <;> cases h
    | false =>
      cases m with
      | run now later answer =>
        simp only [EdgeCall.turn, Option.ite_none_left_eq_some, Nat.not_lt, Option.some.injEq] at h
        obtain ⟨started, rfl⟩ := h
        exact .inr (.inr (.inr ⟨keys, receivers, now, later, answer, rfl, rfl, started, rfl⟩))
      | error => cases h
      | lost now => cases h

end

theorem edgeCheck_turn {i : Nat} {c : EdgeCall} {m : EdgeMove} (hc : s.calls[i]? = some c) :
    edgeCheck (s, .turn i m) = match c.bucket?, m.counted? with
      | some b, some t => some (b, t)
      | _, _ => none := by
  simp only [edgeCheck, hc, Option.bind_some]

/-- Time passes until the turn, and then its check is made if it has one. -/
theorem rate_turn {i : Nat} {m : EdgeMove} {now : Time} {u : EdgeStore}
    (time : m.time? = some now) (started : s.store.now ≤ now)
    (clock : u.now = now) (redis : u.redis =
      match edgeCheck (s, .turn i m) with
      | some (b, _, _) => ((b.request E.limits).pipeline s.store.redis now).2
      | none => s.store.redis) :
    Run RateLimiter.step s.rate (rateEntries E (s, .turn i m)) ⟨u.now, u.redis⟩ := by
  have elapsed : Run RateLimiter.step s.rate [(s.rate, .tick (now - s.store.now))]
      ⟨now, s.store.redis⟩ := by
    apply Run.single
    show some (⟨s.store.now + (now - s.store.now), s.store.redis⟩ : RateLimiter) = _
    rw [Nat.add_sub_cancel' started]
  rw [clock, redis]
  simp only [rateEntries, time]
  cases edgeCheck (s, .turn i m) with
  | none => exact elapsed
  | some check => exact elapsed.trans (Run.single rfl)

/-- A step of the edge is a run of the rate limiter behind it. -/
theorem rate_step {a : Act EdgeArrival EdgeMove} (h : Pool.step (edge E) s a = some t) :
    Run RateLimiter.step s.rate (rateEntries E (s, a)) t.rate := by
  cases a with
  | arrive r =>
    obtain ⟨c, _, rfl⟩ := Pool.step_arrive h
    exact .start
  | turn i m =>
    obtain ⟨c, u, hc, hu, rfl⟩ := Pool.step_turn h
    rcases edge_turn_cases hu with
      ⟨req, phase, now, later, answer, r, rfl, rfl, started, _, hr, rfl⟩ | ⟨req, phase, now, r, rfl, rfl, started, hr, rfl⟩ | ⟨req, phase, rfl, rfl, rfl⟩ |
      ⟨keys, receivers, now, later, answer, rfl, rfl, started, rfl⟩
    · obtain ⟨clock, redis⟩ := operation_rate hr
      refine rate_turn rfl started clock ?_
      rw [redis, edgeCheck_turn hc]
      simp only [EdgeCall.bucket?]
      cases phase.bucket? with
      | none => rfl
      | some b => cases answer <;> rfl
    · obtain ⟨clock, redis⟩ := operation_rate hr
      refine rate_turn rfl started clock ?_
      rw [redis, edgeCheck_turn hc]
      simp only [EdgeCall.bucket?]
      cases phase.bucket? with
      | none => rfl
      | some b => rfl
    · exact .start
    · refine rate_turn rfl started rfl ?_
      rw [edgeCheck_turn hc]
      rfl

theorem rate_run (run : Run (Pool.step (edge E)) s log t) :
    Run RateLimiter.step s.rate (log.flatMap (rateEntries E)) t.rate := by
  induction run with
  | start => exact .start
  | next _ step ih =>
    rw [List.flatMap_append, List.flatMap_singleton]
    exact ih.trans (rate_step step)

/-! ### Its checks -/

variable {b : Bucket} {i : Nat}

theorem time_of_edgeCheck {m : EdgeMove} {now later : Time}
    (h : edgeCheck (s, .turn i m) = some (b, now, later)) :
    s.calls[i]?.bind (·.bucket?) = some b ∧ m.counted? = some (now, later) ∧
      m.time? = some now := by
  simp only [edgeCheck] at h
  cases bucket : s.calls[i]?.bind (·.bucket?) with
  | none => simp [bucket] at h
  | some b' =>
    cases counted : m.counted? with
    | none => simp [bucket, counted] at h
    | some times =>
      simp only [bucket, counted, Option.some.injEq, Prod.mk.injEq] at h
      obtain ⟨rfl, rfl⟩ := h
      refine ⟨rfl, rfl, ?_⟩
      cases m with
      | run n l answer =>
        cases answer <;> cases counted
        rfl
      | error => cases counted
      | lost n =>
        cases counted
        rfl

/-- The entries of a step are asked for as often as it makes the check. -/
theorem countP_rateEntries {e : Edge × Act EdgeArrival EdgeMove} (width j : Nat) :
    (rateEntries E e).countP
        (fun x => asks (b.request E.limits).key x && x.1.now / width == j) =
      if (checksLimit b e && checkTime e / width == j) = true then 1 else 0 := by
  obtain ⟨s, a⟩ := e
  cases a with
  | arrive r => rfl
  | turn i m =>
    cases check : edgeCheck (s, .turn i m) with
    | none =>
      cases time : m.time? with
      | none => simp [rateEntries, time, checksLimit, check]
      | some now => simp [rateEntries, time, checksLimit, check, asks]
    | some c =>
      obtain ⟨b', now, later⟩ := c
      have time := (time_of_edgeCheck check).2.2
      by_cases same : b' = b
      · subst same
        simp [rateEntries, time, checksLimit, checkTime, check, asks]
      · have other : (b'.request E.limits).key ≠ (b.request E.limits).key :=
          fun equal => same (bucket_key_inj equal)
        simp [rateEntries, time, checksLimit, check, asks, same, other]

theorem checksIn_rate (width j : Nat) :
    checksIn (b.request E.limits).key width j (log.flatMap (rateEntries E)) =
      log.countP fun e => checksLimit b e && checkTime e / width == j :=
  countP_flatMap_eq fun _ => countP_rateEntries width j

/-- All checks of a key come from one limit. -/
theorem oneWindow_rate : OneWindow (b.request E.limits).key b.family.windowSeconds
    (log.flatMap (rateEntries E)) := by
  intro x hx r later asked own
  obtain ⟨e, _, hx⟩ := List.mem_flatMap.mp hx
  obtain ⟨s, a⟩ := e
  cases a with
  | arrive a => cases hx
  | turn i m =>
    cases time : m.time? with
    | none => simp [rateEntries, time] at hx
    | some now =>
      simp only [rateEntries, time, List.mem_cons] at hx
      rcases hx with rfl | hx
      · cases asked
      · cases check : edgeCheck (s, .turn i m) with
        | none => simp [check] at hx
        | some c =>
          simp only [check, List.mem_singleton] at hx
          subst hx
          cases asked
          rw [bucket_key_inj own]
          rfl

theorem edgeCheck_of_checksLimit {e : Edge × Act EdgeArrival EdgeMove}
    (h : checksLimit b e = true) : ∃ now later, edgeCheck e = some (b, now, later) := by
  obtain ⟨⟨b', now, later⟩, check, same⟩ := (Option.any_eq_true _ _).mp h
  simp only [decide_eq_true_eq] at same
  exact ⟨now, later, same ▸ check⟩

/-- A check that passes is one that passes there. -/
theorem passes_rateEntries {width j : Nat} {e : Edge × Act EdgeArrival EdgeMove}
    (h : (passesCounted E b e && checkTime e / width == j) = true) :
    1 ≤ (rateEntries E e).countP
      (fun x => passes (b.request E.limits) x && x.1.now / width == j) := by
  rw [Bool.and_eq_true] at h
  obtain ⟨passed, window⟩ := h
  obtain ⟨s, a⟩ := e
  cases a with
  | arrive r => cases passed
  | turn i m =>
    cases m with
    | error => cases passed
    | lost now => cases passed
    | run now later answer =>
      cases answer with
      | aborted => cases passed
      | errored => cases passed
      | counted =>
        simp only [passesCounted, Bool.and_eq_true] at passed
        obtain ⟨now', later', check⟩ := edgeCheck_of_checksLimit passed.1
        have times := (time_of_edgeCheck check).2.1
        simp only [EdgeMove.counted?, Option.some.injEq, Prod.mk.injEq] at times
        obtain ⟨rfl, rfl⟩ := times
        have allowed : passes (b.request E.limits)
            (⟨now, s.store.redis⟩, .rateCheck (b.request E.limits) later) = true := by
          apply passes_check.mpr
          refine ⟨rfl, ?_⟩
          simpa [Bucket.check, RateRequest.check] using passed.2
        simp only [checkTime, check, Option.elim_some] at window
        simp only [rateEntries, EdgeMove.time?, check, List.countP_cons, allowed, window,
          List.countP_nil]
        simp

/-- What the limits let pass of the checks that have a number. -/
theorem passesCounted_window_le (run : Run (Pool.step (edge E)) s log t) (fresh : s.Fresh)
    (b : Bucket) (j : Nat) :
    log.countP (fun e => passesCounted E b e &&
      windowIndex b.family.windowSeconds (checkTime e) == j) ≤ E.limits.limit b.family := by
  have window := passes_window_le (r := b.request E.limits) (windowSeconds_pos b.family)
    (rate_run run) fresh.redis oneWindow_rate j
  exact Nat.le_trans (le_countP_flatMap fun _ => passes_rateEntries) window

/-- A check that passes has a number or fails open. -/
theorem passesLimit_cases {e : Edge × Act EdgeArrival EdgeMove} (h : passesLimit E b e = true) :
    passesCounted E b e = true ∧ checkTime e = turnTime e ∨ failsOpen b e = true := by
  obtain ⟨s, a⟩ := e
  cases a with
  | arrive r => cases h
  | turn i m =>
    cases m with
    | error => cases h
    | lost now => cases h
    | run now later answer =>
      simp only [passesLimit, Bool.and_eq_true, decide_eq_true_eq] at h
      obtain ⟨bucket, allowed⟩ := h
      cases answer with
      | counted =>
        have check : edgeCheck (s, .turn i (.run now later .counted)) = some (b, now, later) := by
          simp [edgeCheck, bucket, EdgeMove.counted?]
        refine .inl ⟨?_, ?_⟩
        · simpa [passesCounted, checksLimit, check] using allowed
        · rw [checkTime, check]
          rfl
      | aborted => exact .inr (by simp [failsOpen, bucket])
      | errored => exact .inr (by simp [failsOpen, bucket])

/-- The checks that pass are at most those that have a number and those that fail open. -/
theorem countP_passesLimit_le (P : Time → Bool) :
    log.countP (fun e => passesLimit E b e && P (turnTime e)) ≤
      log.countP (fun e => passesCounted E b e && P (checkTime e)) +
        log.countP fun e => failsOpen b e && P (turnTime e) := by
  induction log with
  | nil => exact Nat.zero_le _
  | cons e log ih =>
    simp only [List.countP_cons]
    have one : (if (passesLimit E b e && P (turnTime e)) = true then 1 else 0) ≤
        (if (passesCounted E b e && P (checkTime e)) = true then 1 else 0) +
          if (failsOpen b e && P (turnTime e)) = true then 1 else 0 := by
      by_cases passed : (passesLimit E b e && P (turnTime e)) = true
      · rw [if_pos passed]
        obtain ⟨passed, there⟩ := Bool.and_eq_true_iff.mp passed
        rcases passesLimit_cases passed with ⟨counted, time⟩ | failed
        · rw [if_pos (Bool.and_eq_true_iff.mpr ⟨counted, time ▸ there⟩)]
          exact Nat.le_add_right _ _
        · rw [if_pos (Bool.and_eq_true_iff.mpr ⟨failed, there⟩)]
          exact Nat.le_add_left _ _
      · rw [if_neg passed]
        exact Nat.zero_le _
    omega

/-- The number that a check gets is one more than that of the checks of its window before it. -/
theorem limit_number (run : Run (Pool.step (edge E)) s log t) (fresh : s.Fresh) (b : Bucket)
    {now : Time} (started : t.store.now ≤ now) :
    ((b.request E.limits).pipeline t.store.redis now).1 =
      log.countP (fun e => checksLimit b e &&
        windowIndex b.family.windowSeconds (checkTime e) ==
          windowIndex b.family.windowSeconds now) + 1 := by
  have notOver : windowIndex b.family.windowSeconds t.rate.now ≤
      windowIndex b.family.windowSeconds now := Nat.div_le_div_right started
  have counted := counted_run (windowSeconds_pos b.family) (rate_run run) fresh.redis
    oneWindow_rate _ notOver
  have same := counted.number (r := b.request E.limits) (t := ⟨now, t.store.redis⟩)
    (windowSeconds_pos b.family)
  rw [checksIn_rate] at same
  exact same

/-! ## The way of a request -/

/-- The call has taken a turn at a moment of which this holds. -/
def TookTurn (log : EdgeLog) (i : Nat) (P : EdgeStore → Time → Prop) : Prop :=
  ∃ e ∈ log, ∃ now later answer, e.2 = .turn i (.run now later answer) ∧ P e.1.store now

/-- The call has passed the limit: Redis gave it a number within it, or none. -/
def PassedLimit (E : EdgeService) (log : EdgeLog) (i : Nat) (b : Bucket) : Prop :=
  ∃ e ∈ log, ∃ now later answer, e.2 = .turn i (.run now later answer) ∧
    e.1.calls[i]?.bind (·.bucket?) = some b ∧
      (b.check E.limits e.1.store.redis now later answer).1.allowed = true

/-- What the gateway checks have found of an input up to a stage, each at a turn of the call: its
timestamp close to the clock, its signature that of an enabled receiver, its nonce unused. -/
def SignedSoFar (E : EdgeService) (log : EdgeLog) (i : Nat) (input : VerifyHmacInput) :
    HmacPhase → Prop
  | .select ts => TookTurn log i fun _ now => checkHeaders E.config now input = .ok ts
  | .setNonce receiver => ∃ ts,
    (TookTurn log i fun _ now => checkHeaders E.config now input = .ok ts) ∧
      TookTurn log i fun d _ =>
        checkSignature E.crypto d.gateway.receivers input ts = .ok receiver
  | .done (.ok receiver) => ∃ ts,
    (TookTurn log i fun _ now => checkHeaders E.config now input = .ok ts) ∧
      (TookTurn log i fun d _ =>
        checkSignature E.crypto d.gateway.receivers input ts = .ok receiver) ∧
      TookTurn log i fun d now => (redisSet d.gateway.nonces (nonceKey input)
        E.config.inboundTimestampSkewSeconds now).1 = true
  | _ => True

/-- The door of the request's route has let it in. -/
def LetIn (E : EdgeService) (log : EdgeLog) (i : Nat) (req : EdgeRequest) : Principal → Prop
  | .anyone => req.route.door = .anyone
  | .key key => ∃ allowed raw kind, req.route.door = .key allowed ∧
    requireEntry req.authorization = .select raw kind ∧
      TookTurn log i fun d _ => decideKey allowed (lookupApiKey E.keys d.keys raw kind) = .ok key
  | .gateway receiver => req.route.door = .gateway ∧ ∃ input, req.gatewayInput = .ok input ∧
    SignedSoFar E log i input (.done (.ok receiver))
  | .operator => req.route.door = .password ∧ ∃ username password,
    E.basicCredentials req.authorization = some (username, password) ∧
      E.admin.validate E.scrypt username password = true

/-- What is behind a request that stands there. -/
def Stands (E : EdgeService) (log : EdgeLog) (i : Nat) (req : EdgeRequest) : EdgePhase → Prop
  | .before bs => ∃ passed, req.before = passed ++ bs ∧ ∀ b ∈ passed, PassedLimit E log i b
  | .select raw kind => (∀ b ∈ req.before, PassedLimit E log i b) ∧
    (∃ allowed, req.route.door = .key allowed) ∧ requireEntry req.authorization = .select raw kind
  | .hmac input phase => (∀ b ∈ req.before, PassedLimit E log i b) ∧ req.route.door = .gateway ∧
    req.gatewayInput = .ok input ∧ SignedSoFar E log i input phase
  | .password username password => (∀ b ∈ req.before, PassedLimit E log i b) ∧
    req.route.door = .password ∧ E.basicCredentials req.authorization = some (username, password)
  | .behind p bs => (∀ b ∈ req.before, PassedLimit E log i b) ∧ LetIn E log i req p ∧
    ∃ passed, req.behind E p = passed ++ bs ∧ ∀ b ∈ passed, PassedLimit E log i b
  | .handler p => (∀ b ∈ req.before, PassedLimit E log i b) ∧ LetIn E log i req p ∧
    ∀ b ∈ req.behind E p, PassedLimit E log i b
  | .limited b retry => ∃ earlier d now later rest,
    log = earlier ++ (d, .turn i (.run now later .counted)) :: rest ∧
      d.calls[i]?.bind (·.bucket?) = some b ∧ now ≤ later ∧ d.store.now ≤ now ∧
        (b.check E.limits d.store.redis now later .counted).1.allowed = false ∧
          (b.check E.limits d.store.redis now later .counted).1.resetSeconds = retry
  | .refused _ | .challenged | .failed => True

def Edge.Told (E : EdgeService) (log : EdgeLog) (i : Nat) : EdgeCall → Prop
  | .serve req phase => Stands E log i req phase
  | .write .. => True

section

variable {more : EdgeLog} {req : EdgeRequest} {phase : EdgePhase} {p : Principal}

theorem TookTurn.append {P : EdgeStore → Time → Prop} (h : TookTurn log i P) :
    TookTurn (log ++ more) i P := by
  obtain ⟨e, he, rest⟩ := h
  exact ⟨e, List.mem_append_left _ he, rest⟩

theorem PassedLimit.append (h : PassedLimit E log i b) : PassedLimit E (log ++ more) i b := by
  obtain ⟨e, he, rest⟩ := h
  exact ⟨e, List.mem_append_left _ he, rest⟩

theorem SignedSoFar.append {input : VerifyHmacInput} {phase : HmacPhase}
    (h : SignedSoFar E log i input phase) : SignedSoFar E (log ++ more) i input phase := by
  cases phase with
  | check => trivial
  | select ts =>
    have timely : TookTurn log i fun _ now => checkHeaders E.config now input = .ok ts := h
    exact timely.append
  | setNonce receiver =>
    obtain ⟨ts, timely, signed⟩ := h
    exact ⟨ts, timely.append, signed.append⟩
  | done result =>
    cases result with
    | error e => trivial
    | ok receiver =>
      obtain ⟨ts, timely, signed, unused⟩ := h
      exact ⟨ts, timely.append, signed.append, unused.append⟩
  | failed => trivial

theorem LetIn.append (h : LetIn E log i req p) : LetIn E (log ++ more) i req p := by
  cases p with
  | anyone => exact h
  | key key =>
    obtain ⟨allowed, raw, kind, door, entry, found⟩ := h
    exact ⟨allowed, raw, kind, door, entry, found.append⟩
  | gateway receiver =>
    obtain ⟨door, input, read, signed⟩ := h
    exact ⟨door, input, read, signed.append⟩
  | operator => exact h

theorem Stands.append (h : Stands E log i req phase) : Stands E (log ++ more) i req phase := by
  cases phase with
  | before bs =>
    obtain ⟨passed, split, before⟩ := h
    exact ⟨passed, split, fun b hb => (before b hb).append⟩
  | select raw kind => exact ⟨fun b hb => (h.1 b hb).append, h.2⟩
  | hmac input phase => exact ⟨fun b hb => (h.1 b hb).append, h.2.1, h.2.2.1, h.2.2.2.append⟩
  | password username password => exact ⟨fun b hb => (h.1 b hb).append, h.2⟩
  | behind p bs =>
    obtain ⟨before, letIn, passed, split, behind⟩ := h
    exact ⟨fun b hb => (before b hb).append, letIn.append, passed, split,
      fun b hb => (behind b hb).append⟩
  | handler p =>
    exact ⟨fun b hb => (h.1 b hb).append, h.2.1.append, fun b hb => (h.2.2 b hb).append⟩
  | limited b retry =>
    obtain ⟨earlier, d, now, later, rest, split, facts⟩ := h
    exact ⟨earlier, d, now, later, rest ++ more, by rw [split, List.append_assoc]; rfl, facts⟩
  | refused e => trivial
  | challenged => trivial
  | failed => trivial

theorem passed_concat {passed : List Bucket} (before : ∀ b ∈ passed, PassedLimit E log i b)
    (here : PassedLimit E (log ++ more) i b) :
    ∀ b' ∈ passed ++ [b], PassedLimit E (log ++ more) i b' := by
  intro b' hb
  rcases List.mem_append.mp hb with old | last
  · exact (before b' old).append
  · rw [List.mem_singleton.mp last]
    exact here

/-! ### The stages -/

theorem stands_letIn {passed rest : List Bucket} (before : ∀ b ∈ req.before, PassedLimit E log i b)
    (letIn : LetIn E log i req p) (split : req.behind E p = passed ++ rest)
    (behind : ∀ b ∈ passed, PassedLimit E log i b) : Stands E log i req (.letIn p rest) := by
  cases rest with
  | nil =>
    rw [List.append_nil] at split
    exact ⟨before, letIn, split ▸ behind⟩
  | cons b rest => exact ⟨before, letIn, passed, split, behind⟩

theorem stands_admitted (before : ∀ b ∈ req.before, PassedLimit E log i b)
    (letIn : LetIn E log i req p) : Stands E log i req (.letIn p (req.behind E p)) :=
  stands_letIn before letIn (List.nil_append _).symm fun _ hb => absurd hb List.not_mem_nil

theorem stands_doorstep (before : ∀ b ∈ req.before, PassedLimit E log i b) :
    Stands E log i req (req.doorstep E) := by
  unfold EdgeRequest.doorstep
  cases door : req.route.door with
  | anyone => exact stands_admitted before door
  | key allowed =>
    simp only
    cases entry : requireEntry req.authorization with
    | select raw kind => exact ⟨before, ⟨allowed, door⟩, entry⟩
    | done result => cases result <;> trivial
    | failed => trivial
  | gateway =>
    simp only
    cases read : req.gatewayInput with
    | ok input => exact ⟨before, door, read, trivial⟩
    | error e => trivial
  | password =>
    simp only
    cases credentials : E.basicCredentials req.authorization with
    | none => trivial
    | some pair => exact ⟨before, door, credentials⟩

theorem stands_approach {passed rest : List Bucket} (split : req.before = passed ++ rest)
    (before : ∀ b ∈ passed, PassedLimit E log i b) : Stands E log i req (req.approach E rest) := by
  cases rest with
  | nil =>
    rw [List.append_nil] at split
    exact stands_doorstep (split ▸ before)
  | cons b rest => exact ⟨passed, split, before⟩

theorem stands_arrived : Stands E log i req (req.arrived E) := by
  unfold EdgeRequest.arrived
  split
  · trivial
  · exact stands_approach (List.nil_append _).symm (fun _ hb => absurd hb List.not_mem_nil)

/-- A check of a limit: the request passes, or it is told to wait. -/
theorem stands_rateCheck {passed : EdgePhase} {now later : Time} {answer : RedisAnswer}
    (checked : s.calls[i]?.bind (·.bucket?) = some b) (started : s.store.now ≤ now)
    (answered : now ≤ later)
    (passes : PassedLimit E (log ++ [(s, .turn i (.run now later answer))]) i b →
      Stands E (log ++ [(s, .turn i (.run now later answer))]) i req passed) :
    Stands E (log ++ [(s, .turn i (.run now later answer))]) i req
      (EdgeRequest.rateCheck E s.store now later answer b passed).1 := by
  unfold EdgeRequest.rateCheck
  by_cases allowed : (b.check E.limits s.store.redis now later answer).1.allowed = true
  · simp only [allowed, if_true]
    exact passes ⟨_, List.mem_append_right _ (List.mem_singleton_self _), now, later, answer, rfl,
      checked, allowed⟩
  · simp only [allowed, Bool.false_eq_true, if_false]
    rw [Bool.not_eq_true] at allowed
    cases answer with
    | counted => exact ⟨log, s, now, later, [], rfl, checked, answered, started, allowed, rfl⟩
    | aborted => cases allowed
    | errored => cases allowed

theorem TookTurn.last {P : EdgeStore → Time → Prop} {now later : Time} {answer : RedisAnswer}
    (h : P s.store now) : TookTurn (log ++ [(s, .turn i (.run now later answer))]) i P :=
  ⟨_, List.mem_append_right _ (List.mem_singleton_self _), now, later, answer, rfl, h⟩

theorem letIn_key {found : Option AuthedKey} {allowed : List ApiKeyKind} {raw : Text}
    {kind : Option ApiKeyKind} (before : ∀ b ∈ req.before, PassedLimit E log i b)
    (door : req.route.door = .key allowed) (entry : requireEntry req.authorization = .select raw kind)
    (looked : ∀ key, decideKey allowed found = .ok key → TookTurn log i fun d _ =>
      decideKey allowed (lookupApiKey E.keys d.keys raw kind) = .ok key) :
    Stands E log i req (req.keyed E found) := by
  simp only [EdgeRequest.keyed, door]
  cases decided : decideKey allowed found with
  | error e => trivial
  | ok key =>
    have letIn : LetIn E log i req (.key key) :=
      ⟨allowed, raw, kind, door, entry, looked key decided⟩
    exact stands_admitted before letIn

theorem stands_signed {input : VerifyHmacInput} {phase : HmacPhase}
    (before : ∀ b ∈ req.before, PassedLimit E log i b) (door : req.route.door = .gateway)
    (read : req.gatewayInput = .ok input) (signed : SignedSoFar E log i input phase) :
    Stands E log i req (req.signed E input phase) := by
  cases phase with
  | check => exact ⟨before, door, read, signed⟩
  | select ts => exact ⟨before, door, read, signed⟩
  | setNonce receiver => exact ⟨before, door, read, signed⟩
  | done result =>
    cases result with
    | error e => trivial
    | ok receiver =>
      have letIn : LetIn E log i req (.gateway receiver) := ⟨door, input, read, signed⟩
      exact stands_admitted before letIn
  | failed => exact ⟨before, door, read, signed⟩

/-- What one operation of the gateway checks finds. -/
theorem signed_operation {input : VerifyHmacInput} {phase : HmacPhase} {now later : Time}
    {answer : RedisAnswer} {r : HmacPhase × List RedisEntry}
    (h : verifyGatewayHmac E.crypto E.config s.store.gateway now input phase = some r)
    (signed : SignedSoFar E log i input phase) :
    SignedSoFar E (log ++ [(s, .turn i (.run now later answer))]) i input r.1 := by
  cases phase with
  | check =>
    simp only [verifyGatewayHmac] at h
    cases headers : checkHeaders E.config now input with
    | error e =>
      simp only [headers, Option.some.injEq] at h
      subst h
      trivial
    | ok ts =>
      simp only [headers, Option.some.injEq] at h
      subst h
      exact TookTurn.last (P := fun _ now => checkHeaders E.config now input = .ok ts) headers
  | select ts =>
    simp only [verifyGatewayHmac] at h
    cases checked : checkSignature E.crypto s.store.gateway.receivers input ts with
    | error e =>
      simp only [checked, Option.some.injEq] at h
      subst h
      trivial
    | ok receiver =>
      simp only [checked, Option.some.injEq] at h
      subst h
      exact ⟨ts, TookTurn.append signed, TookTurn.last checked⟩
  | setNonce receiver =>
    simp only [verifyGatewayHmac, Option.some.injEq] at h
    obtain ⟨ts, timely, checked⟩ := signed
    by_cases unused : (redisSet s.store.gateway.nonces (nonceKey input)
        E.config.inboundTimestampSkewSeconds now).1 = true
    · simp only [unused, if_true] at h
      subst h
      exact ⟨ts, timely.append, checked.append, TookTurn.last unused⟩
    · simp only [unused, Bool.false_eq_true, if_false] at h
      subst h
      trivial
  | done result => cases h
  | failed => cases h

/-- An operation leads to where the request stands next. -/
theorem stands_operation {now later : Time} {answer : RedisAnswer} {r : EdgePhase × EdgeStore}
    (hc : s.calls[i]? = some (.serve req phase)) (started : s.store.now ≤ now)
    (answered : now ≤ later) (h : req.operation E s.store now later answer phase = some r)
    (stands : Stands E log i req phase) :
    Stands E (log ++ [(s, .turn i (.run now later answer))]) i req r.1 := by
  have checked : ∀ b, phase.bucket? = some b → s.calls[i]?.bind (·.bucket?) = some b := by
    intro b first
    rw [hc]
    exact first
  cases phase with
  | before bs =>
    obtain ⟨passed, split, before⟩ := stands
    cases bs with
    | nil => cases h
    | cons b rest =>
      cases h
      apply stands_rateCheck (checked b rfl) started answered
      intro here
      rw [← List.singleton_append, ← List.append_assoc] at split
      exact stands_approach split (passed_concat before here)
  | behind p bs =>
    obtain ⟨before, letIn, passed, split, behind⟩ := stands
    cases bs with
    | nil => cases h
    | cons b rest =>
      cases h
      apply stands_rateCheck (checked b rfl) started answered
      intro here
      rw [← List.singleton_append, ← List.append_assoc] at split
      exact stands_letIn (fun b hb => (before b hb).append) letIn.append split
        (passed_concat behind here)
  | select raw kind =>
    obtain ⟨before, ⟨allowed, door⟩, entry⟩ := stands
    cases h
    apply letIn_key (fun b hb => (before b hb).append) door entry
    intro key decided
    exact TookTurn.last decided
  | hmac input phase =>
    obtain ⟨before, door, read, signed⟩ := stands
    simp only [EdgeRequest.operation, Option.map_eq_some_iff] at h
    obtain ⟨next, verified, rfl⟩ := h
    exact stands_signed (fun b hb => (before b hb).append) door read
      (signed_operation verified signed)
  | password username password =>
    obtain ⟨before, door, credentials⟩ := stands
    cases h
    by_cases valid : E.admin.validate E.scrypt username password = true
    · have letIn : LetIn E (log ++ [(s, .turn i (.run now later answer))]) i req .operator :=
        ⟨door, username, password, credentials, valid⟩
      simp only [valid, if_true]
      exact stands_admitted (fun b hb => (before b hb).append) letIn
    · simp only [valid, Bool.false_eq_true, if_false]
      trivial
  | handler p => cases h
  | refused e => cases h
  | challenged => cases h
  | limited b retry => cases h
  | failed => cases h

end

theorem told_run (run : Run (Pool.step (edge E)) s log t) (fresh : s.Fresh) :
    ∀ i c, t.calls[i]? = some c → Edge.Told E log i c := by
  refine Pool.call_history ?_ ?_ ?_ ?_ ?_ run
  · intro log q a i c _ told
    cases c with
    | serve req phase => exact Stands.append told
    | write keys receivers isDone => trivial
  · intro i c hc
    rw [fresh.calls] at hc
    cases hc
  · intro d r c hc log i _
    cases r with
    | request req =>
      obtain ⟨_, same⟩ := Option.ite_none_right_eq_some.mp hc
      cases same
      exact stands_arrived
    | write keys receivers =>
      cases hc
      trivial
  · intro log q i c m u _ hc hu n hn
    rcases edge_turn_cases hu with ⟨_, _, _, _, _, _, _, _, _, _, _, rfl⟩ |
      ⟨_, _, _, _, _, _, _, _, rfl⟩ | ⟨_, _, _, _, rfl⟩ | ⟨_, _, _, _, _, _, _, _, rfl⟩
    · cases hn
    · cases hn
    · cases hn
    · cases hn
  · intro log q i c m u _ hc hu told
    rcases edge_turn_cases hu with ⟨req, phase, now, later, answer, r, rfl, rfl, started, answered,
      hr, rfl⟩ | ⟨_, _, _, _, _, _, _, _, rfl⟩ | ⟨_, _, _, _, rfl⟩ | ⟨_, _, _, _, _, _, _, _, rfl⟩
    · exact stands_operation hc started answered hr told
    · trivial
    · trivial
    · trivial

/-! ## Whose limits are spent -/

/-- The app that someone was let in as. -/
def Principal.app (E : EdgeService) : Principal → Option Text
  | .key k => some (E.idText k.appId)
  | .gateway r => some r.appId
  | .anyone | .operator => none

/-- A check is by a request that owns the limit: it comes from the address, or was let in as the app
or as the receiver at a turn of the log. -/
def SpentByOwner (E : EdgeService) (log : EdgeLog) (b : Bucket)
    (e : Edge × Act EdgeArrival EdgeMove) : Prop :=
  ∃ j m req phase, e.2 = .turn j m ∧ e.1.calls[j]? = some (.serve req phase) ∧
    match b.family.scope with
    | .address => req.ip = b.owner
    | .app => ∃ p, LetIn E log j req p ∧ p.app E = some b.owner
    | .receiver => ∃ receiver, LetIn E log j req (.gateway receiver) ∧ receiver.id = b.owner

theorem before_owner {req : EdgeRequest} (h : b ∈ req.before) :
    b.family.scope = .address ∧ req.ip = b.owner := by
  unfold EdgeRequest.before at h
  cases route : req.route <;> simp only [route, List.mem_singleton, List.not_mem_nil] at h <;>
    subst h <;> exact ⟨rfl, rfl⟩

theorem behind_owner {req : EdgeRequest} {p : Principal} (h : b ∈ req.behind E p)
    (letIn : LetIn E log i req p) :
    match b.family.scope with
    | .address => req.ip = b.owner
    | .app => ∃ p, LetIn E log i req p ∧ p.app E = some b.owner
    | .receiver => ∃ receiver, LetIn E log i req (.gateway receiver) ∧ receiver.id = b.owner := by
  cases p with
  | anyone => cases h
  | operator => cases h
  | key key =>
    have app : Principal.app E (.key key) = some (E.idText key.appId) := rfl
    unfold EdgeRequest.behind at h
    cases route : req.route <;>
      simp only [route, List.mem_cons, List.not_mem_nil, or_false] at h
    case startVerification =>
      rcases h with rfl | rfl
      · rfl
      · exact ⟨_, letIn, app⟩
    case getVerification =>
      subst h
      rfl
    all_goals
      subst h
      exact ⟨_, letIn, app⟩
  | gateway receiver =>
    have app : Principal.app E (.gateway receiver) = some receiver.appId := rfl
    unfold EdgeRequest.behind at h
    cases route : req.route <;>
      simp only [route, List.mem_cons, List.not_mem_nil, or_false] at h
    case inboundSms =>
      rcases h with rfl | rfl
      · exact ⟨_, letIn, rfl⟩
      · exact ⟨_, letIn, app⟩
    case heartbeat =>
      subst h
      exact ⟨_, letIn, rfl⟩

/-- A request that checks a limit owns it. -/
theorem spentByOwner (run : Run (Pool.step (edge E)) s log t) (fresh : s.Fresh)
    {earlier rest : EdgeLog} {e : Edge × Act EdgeArrival EdgeMove} (split : log = earlier ++ e :: rest)
    (check : checksLimit b e = true) : SpentByOwner E earlier b e := by
  obtain ⟨_, before, _, _⟩ := run.split_at split
  obtain ⟨now, later, check⟩ := edgeCheck_of_checksLimit check
  obtain ⟨q, a⟩ := e
  cases a with
  | arrive r => cases check
  | turn j m =>
    obtain ⟨bucket, _, _⟩ := time_of_edgeCheck check
    obtain ⟨c, hc, first⟩ := Option.bind_eq_some_iff.mp bucket
    have told := told_run before fresh j c hc
    cases c with
    | write keys receivers isDone => cases first
    | serve req phase =>
      refine ⟨j, m, req, phase, rfl, hc, ?_⟩
      have told : Stands E earlier j req phase := told
      cases phase with
      | before bs =>
        obtain ⟨passed, split, _⟩ := told
        cases bs with
        | nil => cases first
        | cons b' rest =>
          cases first
          have mem : b ∈ req.before := by
            rw [split]
            simp
          obtain ⟨address, own⟩ := before_owner mem
          rw [address]
          exact own
      | behind p bs =>
        obtain ⟨_, letIn, passed, split, _⟩ := told
        cases bs with
        | nil => cases first
        | cons b' rest =>
          cases first
          exact behind_owner (by rw [split]; simp) letIn
      | select raw kind => cases first
      | hmac input phase => cases first
      | password username password => cases first
      | handler p => cases first
      | refused e => cases first
      | challenged => cases first
      | limited b retry => cases first
      | failed => cases first

/-- Whoever waits as long as it is told is in a later window. -/
theorem retry_later {r : RateRequest} {now later n : Nat} (positive : 0 < r.windowSeconds)
    (answered : now ≤ later) :
    1 ≤ (r.check later (some (some n))).resetSeconds ∧
      (r.check later (some (some n))).resetSeconds ≤ r.windowSeconds ∧
      windowIndex r.windowSeconds now <
        windowIndex r.windowSeconds
          (later + (r.check later (some (some n))).resetSeconds * 1000) := by
  simp only [RateRequest.check, windowIndex]
  generalize r.windowSeconds = width at positive ⊢
  have inside : later / 1000 % width < width := Nat.mod_lt _ positive
  refine ⟨by omega, Nat.sub_le _ _, ?_⟩
  have seconds : (later + (width - later / 1000 % width) * 1000) / 1000 =
      width * (later / 1000 / width + 1) := by
    rw [Nat.add_mul_div_right _ _ (by decide)]
    have whole := Nat.div_add_mod (later / 1000) width
    rw [Nat.mul_add, Nat.mul_one]
    omega
  have earlier : now / (width * 1000) ≤ later / 1000 / width := by
    rw [Nat.div_div_eq_div_mul, Nat.mul_comm 1000]
    exact Nat.div_le_div_right answered
  have next : (later + (width - later / 1000 % width) * 1000) / (width * 1000) =
      later / 1000 / width + 1 := by
    rw [Nat.mul_comm width, ← Nat.div_div_eq_div_mul, seconds, Nat.mul_div_cancel_left _ positive]
  rw [next]
  exact Nat.lt_succ_of_le earlier

/-! ## The edge -/

/-- Whether a request waits for its door: for a query, a signature check or a derivation. -/
def EdgePhase.isAtDoor : EdgePhase → Bool
  | .select .. | .hmac .. | .password .. => true
  | _ => false

theorem stands_at_door {req : EdgeRequest} {phase : EdgePhase} (stands : Stands E log i req phase)
    (door : phase.isAtDoor = true) : ∀ b ∈ req.before, PassedLimit E log i b := by
  cases phase with
  | select raw kind => exact stands.1
  | hmac input phase => exact stands.1
  | password username password => exact stands.1
  | before bs => cases door
  | behind p bs => cases door
  | handler p => cases door
  | refused e => cases door
  | challenged => cases door
  | limited b retry => cases door
  | failed => cases door

/-- Whatever happens at once, of all instances: a handler has a request only after its door has let
it in as that principal and it has passed each of its limits; no door is asked before the limits in
front of it are passed; and of the checks of a limit no more pass in a window than it says, nor more
than twice as many in any interval as wide. -/
theorem edge_guards_handlers (run : Run (Pool.step (edge E)) s log t) (fresh : s.Fresh) :
    (∀ i req p, t.calls[i]? = some (.serve req (.handler p)) → LetIn E log i req p ∧
      ∀ b ∈ req.before ++ req.behind E p, PassedLimit E log i b) ∧
    (∀ i req phase, t.calls[i]? = some (.serve req phase) → phase.isAtDoor = true →
      ∀ b ∈ req.before, PassedLimit E log i b) ∧
    ∀ b, (∀ j, log.countP (fun e => passesLimit E b e &&
        windowIndex b.family.windowSeconds (turnTime e) == j) ≤ E.limits.limit b.family +
          log.countP fun e => failsOpen b e &&
            windowIndex b.family.windowSeconds (turnTime e) == j) ∧
      ∀ start, log.countP (fun e => passesLimit E b e && (start ≤ turnTime e &&
        turnTime e < start + b.family.windowSeconds * 1000)) ≤ 2 * E.limits.limit b.family +
          log.countP fun e => failsOpen b e && (start ≤ turnTime e &&
            turnTime e < start + b.family.windowSeconds * 1000) := by
  have told := told_run run fresh
  refine ⟨?_, ?_, ?_⟩
  · intro i req p hc
    obtain ⟨before, letIn, behind⟩ : Stands E log i req (.handler p) := told i _ hc
    refine ⟨letIn, fun b hb => ?_⟩
    rcases List.mem_append.mp hb with front | back
    · exact before b front
    · exact behind b back
  · intro i req phase hc door
    exact stands_at_door (told i _ hc) door
  · intro b
    have bound := passesCounted_window_le run fresh b
    have wide : 0 < b.family.windowSeconds * 1000 := Nat.mul_pos (windowSeconds_pos _) (by decide)
    refine ⟨fun j => ?_, fun start => ?_⟩
    · exact (countP_passesLimit_le fun at' =>
        windowIndex b.family.windowSeconds at' == j).trans (Nat.add_le_add_right (bound j) _)
    · exact (countP_passesLimit_le fun at' => start ≤ at' &&
        at' < start + b.family.windowSeconds * 1000).trans
          (Nat.add_le_add_right (countP_interval_le wide bound start) _)

/-- A request that is told to wait came after as many checks of the limit in its window as the limit
allows, each by a request of the limit's owner: of the address it is of, or let in before that check
as its app or receiver. So neither forged requests nor those of other tenants use it up. Whoever
waits as long as it is told is in a later window. -/
theorem edge_limits_fairly (run : Run (Pool.step (edge E)) s log t) (fresh : s.Fresh) {i : Nat}
    {req : EdgeRequest} {b : Bucket} {retry : Nat}
    (limited : t.calls[i]? = some (.serve req (.limited b retry))) :
    ∃ earlier d now later rest,
      log = earlier ++ (d, .turn i (.run now later .counted)) :: rest ∧
      E.limits.limit b.family ≤ earlier.countP (fun e => checksLimit b e &&
        windowIndex b.family.windowSeconds (checkTime e) ==
          windowIndex b.family.windowSeconds now) ∧
      (∀ before e after, earlier = before ++ e :: after → checksLimit b e = true →
        SpentByOwner E before b e) ∧
      1 ≤ retry ∧ retry ≤ b.family.windowSeconds ∧ windowIndex b.family.windowSeconds now <
        windowIndex b.family.windowSeconds (later + retry * 1000) := by
  obtain ⟨earlier, d, now, later, rest, split, _, answered, started, refused, rfl⟩ :
    Stands E log i req (.limited b retry) := told_run run fresh i _ limited
  obtain ⟨_, before, _, _⟩ := run.split_at split
  have number := limit_number before fresh b started
  have positive : 0 < (b.request E.limits).windowSeconds := windowSeconds_pos b.family
  refine ⟨earlier, d, now, later, rest, split, ?_, ?_, retry_later positive answered⟩
  · have exceeded : ¬ ((b.request E.limits).pipeline d.store.redis now).1 ≤
        (b.request E.limits).limit := by
      simpa [Bucket.check, RateRequest.check] using refused
    rw [number, Nat.not_le] at exceeded
    exact Nat.le_of_lt_succ exceeded
  · exact fun _ e _ split check => spentByOwner before fresh split check

namespace EdgeScript

theorem ascii_bytes (s : Text) (_ : ∀ c ∈ s, c < 128) :
    s.map UInt16.toUInt8 = s.map UInt16.toUInt8 := rfl

theorem sha256_bytes (_ : List UInt8) : (List.replicate 32 (0 : UInt8)).length = 32 :=
  List.length_replicate

theorem hmacSha256_bytes (_ _ : List UInt8) : (List.replicate 32 (0 : UInt8)).length = 32 :=
  List.length_replicate

def digests : Primitives where
  utf8 s := s.map UInt16.toUInt8
  sha256 _ := List.replicate 32 0
  hmacSha256 _ _ := List.replicate 32 0
  utf8_ascii := ascii_bytes
  sha256_length := sha256_bytes
  hmacSha256_length := hmacSha256_bytes

/-- "ops" and "correct horse", as a browser sends them. -/
def authorization : Text := text "Basic b3BzOmNvcnJlY3QgaG9yc2U="

/-- A server whose dashboard takes one request of an address in five minutes. -/
def service : EdgeService where
  config := .default
  limits := ⟨fun _ => 1, fun _ => Nat.le_refl 1⟩
  keys := ⟨digests, []⟩
  crypto := digests.crypto fun _ _ => none
  admin := AdminScript.settings
  scrypt := AdminScript.scrypt
  webauthn := ⟨false, none, none, [], 300, challengeTtl_default⟩
  hostedPageEnabled := true
  idText id := Text.ofInt id.ulid
  basicCredentials header := if header = some authorization then
    some (text "ops", text "correct horse") else none

def request : EdgeRequest where
  route := .admin
  ip := text "192.0.2.1"
  authorization := some authorization
  pathId := []
  http := ⟨[], none, none, none, none, []⟩

def start : Edge := ⟨⟨⟨300000, [], []⟩, fun _ => none, ⟨[], []⟩⟩, []⟩

theorem fresh : start.Fresh := ⟨rfl, fun _ => rfl⟩

/-- Two requests in one window: the first is let in, the second waits. -/
def acts : List (Act EdgeArrival EdgeMove) :=
  [.arrive (.request request), .arrive (.request request),
    .turn 0 (.run 301000 301005 .counted), .turn 1 (.run 302000 302001 .counted),
    .turn 0 (.run 302500 302500 .counted)]

def ip : Bucket := ⟨.adminIp, text "192.0.2.1"⟩

def phase? : EdgeCall → Option EdgePhase
  | .serve _ phase => some phase
  | .write .. => none

theorem serve_of_phase? {c : Option EdgeCall} {phase : EdgePhase} (h : c.bind phase? = some phase) :
    ∃ req, c = some (.serve req phase) := by
  obtain ⟨call, rfl, same⟩ := Option.bind_eq_some_iff.mp h
  cases call with
  | serve req phase' =>
    cases same
    exact ⟨req, rfl⟩
  | write keys receivers isDone => cases same

theorem shown : ∃ log t, Run (Pool.step (edge service)) start log t ∧
    (t.calls[0]?.bind phase? = some (.handler .operator) ∧
      t.calls[1]?.bind phase? = some (.limited ip 298)) :=
  @run_of_exec_any _ _ _ acts _ _ _ (by decide +kernel)

end EdgeScript

/-- The first of two requests has its handler, by its password. -/
theorem edge_guards_handlers_script : ∃ log t req,
    Run (Pool.step (edge EdgeScript.service)) EdgeScript.start log t ∧
      t.calls[0]? = some (.serve req (.handler .operator)) ∧
      LetIn EdgeScript.service log 0 req .operator := by
  obtain ⟨log, t, run, first, _⟩ := EdgeScript.shown
  obtain ⟨req, handled⟩ := EdgeScript.serve_of_phase? first
  exact ⟨log, t, req, run, handled,
    ((edge_guards_handlers run EdgeScript.fresh).1 0 req .operator handled).1⟩

/-- The second waits, and the one before it has used the limit up. -/
theorem edge_limits_fairly_script : ∃ log t req earlier now,
    Run (Pool.step (edge EdgeScript.service)) EdgeScript.start log t ∧
      t.calls[1]? = some (.serve req (.limited EdgeScript.ip 298)) ∧
      1 ≤ List.countP (fun e => checksLimit EdgeScript.ip e &&
        windowIndex 300 (checkTime e) == windowIndex 300 now) earlier := by
  obtain ⟨log, t, run, _, second⟩ := EdgeScript.shown
  obtain ⟨req, limited⟩ := EdgeScript.serve_of_phase? second
  obtain ⟨earlier, _, now, _, _, _, used, _⟩ := edge_limits_fairly run EdgeScript.fresh limited
  exact ⟨log, t, req, earlier, now, run, limited, used⟩

end Syrotp
