import Syrotp.Server.Hmac

/-!
# Replayed requests

Redis remembers a nonce for as long as the skew window is wide, counted from the moment it is
recorded; the timestamp stays acceptable until the window has passed over it. The nonce outlives
the timestamp exactly when it is recorded after the second that the timestamp names.
-/

namespace Syrotp

variable {C : Crypto} {config : Config}

/-! ## Redis -/

/-- What `redisSet` answers and leaves, seen from the entries before. -/
theorem redisSet_spec {entries : List RedisEntry} {key : Text} {seconds : Nat} {now : Time} :
    (∀ e ∈ entries, e ∈ (redisSet entries key seconds now).2 ∨ e.expiresAt ≤ now) ∧
      ((redisSet entries key seconds now).1 = true →
        (∀ e ∈ entries, e.key = key → e.expiresAt ≤ now) ∧
        ⟨key, now + seconds * 1000⟩ ∈ (redisSet entries key seconds now).2) := by
  unfold redisSet
  split
  · exact ⟨fun e he => .inl he, nofun⟩
  · next gone =>
    have expired : ∀ e ∈ entries, e.key = key → e.expiresAt ≤ now := by
      intro e he same
      by_contra alive
      exact gone (List.any_eq_true.mpr ⟨e, he, decide_eq_true ⟨same, Nat.lt_of_not_le alive⟩⟩)
    refine ⟨fun e he => ?_, fun _ => ⟨expired, List.mem_cons_self⟩⟩
    by_cases same : e.key = key
    · exact .inr (expired e he same)
    · exact .inl (List.mem_cons_of_mem _ (List.mem_filter.mpr ⟨he, decide_eq_true same⟩))

/-! ## One operation -/

/-- The call has accepted this request. -/
def GatewayCall.Accepted (input : VerifyHmacInput) (c : GatewayCall) : Prop :=
  ∃ receiver, c = .verify input (.done (.ok receiver))

/-- An operation moves the clock on and keeps every entry that has not expired. -/
theorem operation_store {store : GatewayStore} {now : Time} {c : GatewayCall}
    {t : Turn GatewayStore GatewayCall} (h : c.operation C config store now = some t) :
    t.store.clock = now ∧ store.clock ≤ now ∧ t.spawned = [] ∧
      ∀ e ∈ store.nonces, e ∈ t.store.nonces ∨ e.expiresAt ≤ now := by
  simp only [GatewayCall.operation, Option.ite_none_left_eq_some, Nat.not_lt] at h
  obtain ⟨later, h⟩ := h
  cases c with
  | verify input phase =>
    obtain ⟨⟨phase', nonces⟩, hr, rfl⟩ := Option.map_eq_some_iff.mp h
    refine ⟨rfl, later, rfl, fun e he => ?_⟩
    cases phase with
    | check =>
      simp only [verifyGatewayHmac] at hr
      split at hr <;> obtain ⟨rfl, rfl⟩ := Option.some.inj hr <;> exact .inl he
    | select ts =>
      simp only [verifyGatewayHmac] at hr
      split at hr <;> obtain ⟨rfl, rfl⟩ := Option.some.inj hr <;> exact .inl he
    | setNonce receiver =>
      obtain ⟨rfl, rfl⟩ := Option.some.inj hr
      exact redisSet_spec.1 e he
    | done result => exact nomatch hr
    | failed => exact nomatch hr
  | putReceiver row isDone =>
    cases isDone with
    | false =>
      obtain rfl := Option.some.inj h
      exact ⟨rfl, later, rfl, fun e he => .inl he⟩
    | true => exact nomatch h

/-- A request is accepted by the operation that records its nonce, when no live entry has it. -/
theorem operation_accepts {store : GatewayStore} {now : Time} {c : GatewayCall}
    {t : Turn GatewayStore GatewayCall} (h : c.operation C config store now = some t)
    {input : VerifyHmacInput} (accepted : t.call.Accepted input) :
    (∃ receiver, c = .verify input (.setNonce receiver)) ∧
      (∀ e ∈ store.nonces, e.key = nonceKey input → e.expiresAt ≤ now) ∧
      ⟨nonceKey input, now + config.inboundTimestampSkewSeconds * 1000⟩ ∈ t.store.nonces := by
  obtain ⟨receiver, accepted⟩ := accepted
  simp only [GatewayCall.operation, Option.ite_none_left_eq_some] at h
  obtain ⟨_, h⟩ := h
  cases c with
  | verify input' phase =>
    obtain ⟨⟨phase', nonces⟩, hr, rfl⟩ := Option.map_eq_some_iff.mp h
    obtain ⟨rfl, rfl⟩ := GatewayCall.verify.inj accepted
    cases phase with
    | check =>
      simp only [verifyGatewayHmac] at hr
      split at hr <;> exact nomatch (Prod.mk.inj (Option.some.inj hr)).1
    | select ts =>
      simp only [verifyGatewayHmac] at hr
      split at hr <;> exact nomatch (Prod.mk.inj (Option.some.inj hr)).1
    | setNonce receiver' =>
      simp only [verifyGatewayHmac, Option.some.injEq, Prod.mk.injEq, HmacPhase.done.injEq] at hr
      obtain ⟨answer, rfl⟩ := hr
      split at answer
      · next set => exact ⟨⟨_, rfl⟩, redisSet_spec.2 set⟩
      · exact nomatch answer
    | done result => exact nomatch hr
    | failed => exact nomatch hr
  | putReceiver row isDone =>
    cases isDone with
    | false =>
      obtain rfl := Option.some.inj h
      exact nomatch accepted
    | true => exact nomatch h

/-- A turn keeps what has not expired, and accepts a request only by such an operation. -/
theorem gateway_turn {store : GatewayStore} {c : GatewayCall} {m : GatewayMove}
    {t : Turn GatewayStore GatewayCall} (h : c.turn C config store m = some t) :
    store.clock ≤ t.store.clock ∧ t.spawned = [] ∧
      (∀ e ∈ store.nonces, e ∈ t.store.nonces ∨ e.expiresAt ≤ t.store.clock) ∧
      ∀ input, t.call.Accepted input → ∃ now receiver, m = .run now ∧
        c = .verify input (.setNonce receiver) ∧ store.clock ≤ now ∧
        (∀ e ∈ store.nonces, e.key = nonceKey input → e.expiresAt ≤ now) ∧
        ⟨nonceKey input, now + config.inboundTimestampSkewSeconds * 1000⟩ ∈ t.store.nonces := by
  have failed : ∀ input, ¬c.failed.Accepted input := by
    rintro input ⟨receiver, accepted⟩
    cases c <;> exact nomatch accepted
  cases m with
  | run now =>
    obtain ⟨clock, later, spawned, kept⟩ := operation_store h
    refine ⟨clock ▸ later, spawned, clock ▸ kept, fun input accepted => ?_⟩
    obtain ⟨⟨receiver, same⟩, free, entry⟩ := operation_accepts h accepted
    exact ⟨now, receiver, rfl, same, later, free, entry⟩
  | error =>
    simp only [GatewayCall.turn, Option.ite_none_right_eq_some, Option.some.injEq] at h
    obtain ⟨_, rfl⟩ := h
    exact ⟨Nat.le_refl _, rfl, fun e he => .inl he, fun input acc => absurd acc (failed input)⟩
  | lost now =>
    obtain ⟨t', ht', rfl⟩ := Option.map_eq_some_iff.mp h
    obtain ⟨clock, later, _, kept⟩ := operation_store ht'
    exact ⟨clock ▸ later, rfl, clock ▸ kept, fun input acc => absurd acc (failed input)⟩

/-! ## Accepted once -/

/-- The nonce of a request is recorded at this time after the second its timestamp names, and
while the timestamp is within the window. -/
def Timely (config : Config) (input : VerifyHmacInput) (now : Time) : Prop :=
  ∃ ts, Text.parseInt input.timestampHeader = some ts ∧ ts < (now / 1000 : Nat) ∧
    ((now / 1000 : Nat) : Int) ≤ ts + config.inboundTimestampSkewSeconds

/-- At this step no nonce is recorded, or that of a timely request. -/
def RecordsTimely (config : Config) (p : Gateway) (a : Act GatewayRequest GatewayMove) : Prop :=
  ∀ i now input receiver, a = .turn i (.run now) →
    p.calls[i]? = some (.verify input (.setNonce receiver)) → Timely config input now

/-- A request that was recorded in time, at `at`, is remembered until its timestamp is stale. -/
def Remembered (config : Config) (store : GatewayStore) (input : VerifyHmacInput) : Prop :=
  ∃ recorded, Timely config input recorded ∧
    let entry : RedisEntry :=
      ⟨nonceKey input, recorded + config.inboundTimestampSkewSeconds * 1000⟩
    entry ∈ store.nonces ∨ entry.expiresAt ≤ store.clock

/-- Every accepted request is remembered, and was accepted by one call. -/
structure Gateway.Once (config : Config) (p : Gateway) : Prop where
  remembered : ∀ (i : Nat) (c : GatewayCall) input, p.calls[i]? = some c → c.Accepted input →
    Remembered config p.store input
  one : ∀ (i j : Nat) (c d : GatewayCall) input, p.calls[i]? = some c →
    p.calls[j]? = some d → c.Accepted input → d.Accepted input → i = j

theorem Remembered.later {store store' : GatewayStore} {input : VerifyHmacInput}
    (h : Remembered config store input) (later : store.clock ≤ store'.clock)
    (kept : ∀ e ∈ store.nonces, e ∈ store'.nonces ∨ e.expiresAt ≤ store'.clock) :
    Remembered config store' input := by
  obtain ⟨recorded, timely, entry | gone⟩ := h
  · exact ⟨recorded, timely, kept _ entry⟩
  · exact ⟨recorded, timely, .inr (Nat.le_trans gone later)⟩

/-- Recorded after the second of its timestamp, a nonce outlives the window. -/
theorem nonce_outlives_timestamp {ts : Int} {recorded now skew : Nat}
    (past : ts < (recorded / 1000 : Nat)) (fresh : ((now / 1000 : Nat) : Int) ≤ ts + skew) :
    now < recorded + skew * 1000 := by
  omega

/-- While its timestamp is within the window, a remembered request is in Redis. -/
theorem Remembered.live {store : GatewayStore} {input : VerifyHmacInput} {now : Time}
    (h : Remembered config store input) (timely : Timely config input now)
    (later : store.clock ≤ now) :
    ∃ e ∈ store.nonces, e.key = nonceKey input ∧ now < e.expiresAt := by
  obtain ⟨recorded, ⟨ts, parsed, past, _⟩, found⟩ := h
  obtain ⟨ts', parsed', _, fresh⟩ := timely
  obtain rfl : ts' = ts := Option.some.inj (parsed'.symm.trans parsed)
  have unexpired := nonce_outlives_timestamp past fresh
  rcases found with entry | gone
  · exact ⟨_, entry, rfl, unexpired⟩
  · exact absurd (Nat.le_trans gone later) (Nat.not_le.mpr unexpired)

/-- A step that records no nonce out of time keeps it so. -/
theorem Gateway.Once.step {p q : Gateway} {a : Act GatewayRequest GatewayMove}
    (h : p.Once config) (timely : RecordsTimely config p a)
    (hs : p.step (gateway C config) a = some q) : q.Once config := by
  cases a with
  | arrive r =>
    obtain ⟨n, hn, rfl⟩ := Pool.step_arrive hs
    have idle : ∀ input, ¬n.Accepted input := by
      rintro input ⟨receiver, rfl⟩
      cases r <;> exact nomatch hn
    have old : ∀ {i : Nat} {c input}, (p.calls ++ [n])[i]? = some c →
        GatewayCall.Accepted input c → p.calls[i]? = some c := by
      intro i c input hc accepted
      rcases Nat.lt_or_ge i p.calls.length with inside | outside
      · rwa [List.getElem?_append_left inside] at hc
      · rw [List.getElem?_append_right outside] at hc
        obtain rfl := List.mem_singleton.mp (List.mem_of_getElem? hc)
        exact absurd accepted (idle input)
    exact ⟨fun i c input hc acc => h.remembered i c input (old hc acc) acc,
      fun i j c d input hc hd acc acc' => h.one i j c d input (old hc acc) (old hd acc') acc acc'⟩
  | turn i m =>
    obtain ⟨c, t, hc, ht, rfl⟩ := Pool.step_turn hs
    obtain ⟨later, spawned, kept, accepts⟩ := gateway_turn ht
    have origin : ∀ {j : Nat} {x : GatewayCall},
        (p.calls.set i t.call ++ t.spawned)[j]? = some x →
        (j ≠ i ∧ p.calls[j]? = some x) ∨ (j = i ∧ x = t.call) := by
      intro j x hj
      rcases Pool.turned_call hc hj with old | self | ⟨_, new⟩
      · exact .inl old
      · exact .inr self
      · rw [spawned] at new
        exact nomatch new
    -- what the acting call accepts, no other call has accepted
    have apart : ∀ {j : Nat} {x : GatewayCall} {input}, p.calls[j]? = some x →
        x.Accepted input → ¬t.call.Accepted input := by
      intro j x input hj accepted accepts'
      obtain ⟨now, receiver, rfl, rfl, later, free, _⟩ := accepts input accepts'
      obtain ⟨e, he, same, live⟩ :=
        (h.remembered j x input hj accepted).live (timely i now input receiver rfl hc) later
      exact absurd (free e he same) (Nat.not_le.mpr live)
    refine ⟨fun j x input hj accepted => ?_, fun j k x y input hj hk acc acc' => ?_⟩
    · rcases origin hj with ⟨_, hj⟩ | ⟨_, rfl⟩
      · exact (h.remembered j x input hj accepted).later later kept
      · obtain ⟨now, receiver, rfl, rfl, _, _, entry⟩ := accepts input accepted
        exact ⟨now, timely i now input receiver rfl hc, .inl entry⟩
    · rcases origin hj with ⟨_, old⟩ | ⟨here, rfl⟩ <;>
        rcases origin hk with ⟨_, old'⟩ | ⟨here', rfl⟩
      · exact h.one j k x y input old old' acc acc'
      · exact absurd acc' (apart old acc)
      · exact absurd acc (apart old' acc')
      · exact here.trans here'.symm

/-! ## Replays -/

/-- In every run in which each nonce is recorded after the second its request's timestamp names
and while the timestamp is within the window, a signed request is accepted at most once. -/
theorem request_accepted_once {log : List (Gateway × Act GatewayRequest GatewayMove)}
    {p : Gateway} (run : GatewayRun C config log p)
    (timely : ∀ e ∈ log, RecordsTimely config e.1 e.2) {i j : Nat} {input : VerifyHmacInput}
    {receiver receiver' : VerifiedReceiver}
    (hi : p.calls[i]? = some (.verify input (.done (.ok receiver))))
    (hj : p.calls[j]? = some (.verify input (.done (.ok receiver')))) : i = j := by
  have once : p.Once config := run.invariant_of _ (RecordsTimely config)
    ⟨fun i c input hc => by simp [Gateway.init] at hc,
      fun i j c d input hc => by simp [Gateway.init] at hc⟩
    (fun _ _ _ h timely hs => h.step timely hs) timely
  exact once.one i j _ _ input hi hj ⟨receiver, rfl⟩ ⟨receiver', rfl⟩

namespace GatewayScript

def heartbeat : List UInt8 :=
  [123, 34, 113, 117, 101, 117, 101, 95, 100, 101, 112, 116, 104, 34, 58, 48, 125]

def bodyHash : Text := text "c40e10ab69cd392f0e7243565fe405ba8c1ae99ae093ec40c67b4db5e95c8f1b"

def signature : Text := text "0bec926637fb35586d2460d45903ba0947c6b29833382327beab3ca7e2d123ad"

def nonce : Text := text "00112233445566778899aabbccddeeff"

def wrapped : Text := text "v1.AgICAgICAgICAgIC.f5O3TL1eqh2fY_dZsbNnHQ.YKGWJSMhpKK4"

/-- The values of the real functions on this request, under a master key of 32 bytes `01`. -/
def crypto : Crypto where
  sha256Hex body := if body = heartbeat then bodyHash else []
  hmacSha256Hex key message :=
    if key = text "gw_live_k" ∧ message = text "1700000000." ++ nonce ++ text "." ++ bodyHash then
      signature
    else []
  unwrap stored aad :=
    if stored = wrapped ∧ aad = text "receiver:rcv_1" then some (text "gw_live_k") else none

/-- A heartbeat signed at second 1700000000. -/
def request : VerifyHmacInput :=
  ⟨text "rcv_1", text "1700000000", nonce, signature, heartbeat⟩

def receiver : GatewayReceiver := ⟨text "rcv_1", text "app_1", text "+963110000000", wrapped, true⟩

/-- The receiver is provisioned (call 0), and the request is posted at each of these times. -/
def posts (times : List Time) : List (Act GatewayRequest GatewayMove) :=
  [.arrive (.putReceiver receiver), .turn 0 (.run 0)] ++
  (times.mapIdx fun i now =>
    .arrive (.verify request) :: List.replicate 3 (.turn (i + 1) (.run now))).flatten

def result (times : List Time) :
    Option (List (Gateway × Act GatewayRequest GatewayMove) × Gateway) :=
  exec (Pool.step (gateway crypto .default)) .init (posts times)

/-- A run of the posts, with what is decided of its log and its end. -/
theorem run (times : List Time)
    {P : List (Gateway × Act GatewayRequest GatewayMove) → Gateway → Prop}
    [∀ log p, Decidable (P log p)]
    (h : (result times).any (fun r => decide (P r.1 r.2)) = true) :
    ∃ log p, GatewayRun crypto .default log p ∧ P log p :=
  run_of_exec_any h

/-- In the second of the timestamp, and 300 seconds later. -/
def early : List Time := [1700000000300, 1700000300300]

/-- A second later, and within the window of that. -/
def late : List Time := [1700000001000, 1700000300000]

/-- At this step the request is recorded within its window, or nothing is. -/
def inTime (e : Gateway × Act GatewayRequest GatewayMove) : Bool :=
  match e.2 with
  | .turn i (.run now) =>
    match e.1.calls[i]? with
    | some (.verify input (.setNonce _)) =>
      input = request ∧ 1700000000 < now / 1000 ∧ now / 1000 ≤ 1700000300
    | _ => true
  | _ => true

theorem records_timely {e : Gateway × Act GatewayRequest GatewayMove} (h : inTime e = true) :
    RecordsTimely .default e.1 e.2 := by
  intro i now input receiver taken hc
  simp only [inTime, taken, hc, decide_eq_true_eq] at h
  obtain ⟨rfl, past, fresh⟩ := h
  exact ⟨1700000000, by decide +kernel, Int.ofNat_lt.mpr past,
    Int.ofNat_le.mpr fresh⟩

theorem late_run : ∃ log p, GatewayRun crypto .default log p ∧ (∀ e ∈ log, inTime e = true) ∧
    p.calls[1]? = some (.verify request
      (.done (.ok ⟨text "rcv_1", text "app_1", text "+963110000000"⟩))) :=
  run late (by decide +kernel)

theorem early_run : ∃ log p, GatewayRun crypto .default log p ∧
    ∀ i ∈ [1, 2], p.calls[i]? = some (.verify request
      (.done (.ok ⟨text "rcv_1", text "app_1", text "+963110000000"⟩))) :=
  run early (by decide +kernel)

end GatewayScript

/-- A second later than it was signed it is accepted, and posted again within the window it is
not. -/
theorem request_accepted_once_script : ∃ log p, GatewayRun GatewayScript.crypto .default log p ∧
    (∃ receiver, p.calls[1]? = some (.verify GatewayScript.request (.done (.ok receiver)))) ∧
    ∀ receiver, p.calls[2]? ≠ some (.verify GatewayScript.request (.done (.ok receiver))) := by
  obtain ⟨log, p, run, timely, accepted⟩ := GatewayScript.late_run
  refine ⟨log, p, run, ⟨_, accepted⟩, fun receiver again => ?_⟩
  have same := request_accepted_once run
    (fun e he => GatewayScript.records_timely (timely e he)) accepted again
  exact absurd same (by decide)

/-- A request that arrives in the second it was signed in is accepted once more when Redis has
forgotten its nonce, 300 seconds later. -/
theorem request_accepted_twice : ∃ log p, GatewayRun GatewayScript.crypto .default log p ∧
    ∃ receiver receiver',
      p.calls[1]? = some (.verify GatewayScript.request (.done (.ok receiver))) ∧
      p.calls[2]? = some (.verify GatewayScript.request (.done (.ok receiver'))) := by
  obtain ⟨log, p, run, accepted⟩ := GatewayScript.early_run
  exact ⟨log, p, run, _, _, accepted 1 (by decide), accepted 2 (by decide)⟩

end Syrotp
