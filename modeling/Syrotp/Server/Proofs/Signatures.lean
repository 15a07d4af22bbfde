import Syrotp.Server.Proofs.Replay
import Syrotp.Gsm.Client
import Syrotp.Android.Client
import Syrotp.Misc.Decimal

/-!
# One signature, three implementations

A signed message is what the two gateways mean to send. Both send the same request for it, the
server reads that request back and recomputes the signature from it; and the signature is that of
no other message, since the signed text can be taken apart again.
-/

namespace Syrotp

/-- A receiver's message: when it is signed, its nonce and its bytes. -/
structure SignedMessage where
  receiver : Text
  timestamp : Int
  nonce : Text
  body : List UInt8

variable {P : Primitives} {unwrap : Text → Text → Option Text} {config : Config}
  {m : SignedMessage} {receiver key : Text}

namespace SignedMessage

/-- `<timestamp>.<nonce>.<sha256(body)>`. -/
def payload (P : Primitives) (m : SignedMessage) : Text :=
  [46].intercalate [Text.ofInt m.timestamp, m.nonce, hex (P.sha256 m.body)]

def signature (P : Primitives) (m : SignedMessage) (key : Text) : Text :=
  hex (P.hmacSha256 (P.utf8 key) (P.utf8 (m.payload P)))

def request (P : Primitives) (m : SignedMessage) (key : Text) : HttpRequest where
  contentType := text "application/json"
  receiver := m.receiver
  timestamp := Text.ofInt m.timestamp
  nonce := m.nonce
  signature := m.signature P key
  body := m.body

/-- The request as `verifyGatewayHmac` is given it. -/
def input (P : Primitives) (m : SignedMessage) (key : Text) : VerifyHmacInput :=
  ⟨m.receiver, Text.ofInt m.timestamp, m.nonce, m.signature P key, m.body⟩

/-- The receiver's id and the nonce have the form that the server asks for. -/
structure WellFormed (m : SignedMessage) : Prop where
  receiver : isReceiverId m.receiver = true
  nonce : isNonce m.nonce = true

end SignedMessage

/-! ## The two gateways -/

/-- A gateway with this receiver id and signing key sends the message as this request. -/
inductive Sends (P : Primitives) (receiver key : Text) : SignedMessage → HttpRequest → Prop
  | gsm (body : List UInt8) (timestamp : Option Int) (nonce : Option Text) (time : Int)
      (random : List UInt8) (drawn : random.length = 16)
      (given : ∀ n, nonce = some n → isNonce n = true) :
      Sends P receiver key ⟨receiver, timestamp.getD time, nonce.getD (hex random), body⟩
        (Gsm.signedRequest P receiver key body timestamp nonce time random)
  | android (jsonBody : Text) (millis : Int) (random : List UInt8) (drawn : random.length = 16) :
      Sends P receiver key ⟨receiver, millis.tdiv 1000, hex random, P.utf8 jsonBody⟩
        (Android.postSigned P receiver (Android.importKey P key) jsonBody millis random)

/-- The text that a template puts together. -/
theorem template_eq (a b c : Text) :
    a ++ text "." ++ b ++ text "." ++ c = [46].intercalate [a, b, c] := by
  simp only [List.intercalate_cons_cons, List.intercalate_singleton, List.append_assoc]
  rfl

theorem isNonce_hex {bytes : List UInt8} (h : bytes.length = 16) : isNonce (hex bytes) = true := by
  have digits := List.all_eq_true.mpr fun c (hc : c ∈ hex bytes) => isHexDigit_of_mem_hex hc
  rw [isNonce, hex_length, h, digits]
  rfl

/-- Both send the request of the message. -/
theorem Sends.request_eq {req : HttpRequest} (h : Sends P receiver key m req) :
    req = m.request P key := by
  cases h with
  | gsm body timestamp nonce time random =>
    simp only [Gsm.signedRequest, Gsm.buildSignature, Gsm.sha256Hex, Gsm.hmacSha256Hex,
      template_eq]
    rfl
  | android jsonBody millis random =>
    simp only [Android.postSigned, Android.sha256Hex, Android.sign, Android.importKey,
      Android.hexEncode_eq_hex, template_eq]
    rfl

theorem Sends.wellFormed {req : HttpRequest} (h : Sends P receiver key m req)
    (id : isReceiverId receiver = true) : m.WellFormed ∧ m.receiver = receiver := by
  cases h with
  | gsm body timestamp nonce time random drawn given =>
    refine ⟨⟨id, ?_⟩, rfl⟩
    cases nonce with
    | none => exact isNonce_hex drawn
    | some n => exact given n rfl
  | android jsonBody millis random drawn => exact ⟨⟨id, isNonce_hex drawn⟩, rfl⟩

/-! ## The server reads it back -/

theorem isSignature_hex {bytes : List UInt8} (h : bytes.length = 32) :
    isSignature (hex bytes) = true := by
  have digits := List.all_eq_true.mpr fun c (hc : c ∈ hex bytes) => isHexDigit_of_mem_hex hc
  rw [isSignature, hex_length, h, digits]
  rfl

theorem header_of_ne_nil {s : Text} (h : s ≠ []) : header (some s) = some s := by
  cases s with
  | nil => exact absurd rfl h
  | cons c s => rfl

theorem ofInt_ne_nil (n : Int) : Text.ofInt n ≠ [] := by
  cases n with
  | ofNat n => exact Text.ofInt_nat n ▸ Text.digits_ne_nil n
  | negSucc n => exact (Text.ofInt_neg n).symm ▸ List.cons_ne_nil _ _

theorem gatewayInput_request (h : m.WellFormed) (key : Text) :
    gatewayInput (m.request P key) = some (m.input P key) := by
  have receiver : m.receiver ≠ [] := fun empty => absurd h.receiver (by rw [empty]; decide)
  have nonce : m.nonce ≠ [] := fun empty => absurd h.nonce (by rw [empty]; decide)
  have signature : m.signature P key ≠ [] := by
    have long := hex_length (P.hmacSha256 (P.utf8 key) (P.utf8 (m.payload P)))
    rw [P.hmacSha256_length] at long
    exact fun empty => absurd long (by rw [show hex _ = [] from empty]; decide)
  simp only [gatewayInput, SignedMessage.request, header_of_ne_nil receiver,
    header_of_ne_nil (ofInt_ne_nil _), header_of_ne_nil nonce, header_of_ne_nil signature,
    h.receiver, rawBody, if_true]
  rfl

/-! ## The signed text -/

/-- Characters that are not the separator. -/
theorem dot_not_mem {s : Text} (h : ∀ c ∈ s, c = 45 ∨ Text.isHexDigit c = true) : 46 ∉ s := by
  intro dot
  rcases h 46 dot with same | digit
  · exact absurd same (by decide)
  · exact absurd digit (by decide)

theorem ascii_of_plain {c : UInt16} (h : c = 45 ∨ Text.isHexDigit c = true) : c < 128 := by
  rcases h with rfl | digit
  · decide
  · simp only [Text.isHexDigit, Text.isDigit, Bool.or_eq_true, Bool.and_eq_true,
      decide_eq_true_eq, UInt16.le_iff_toNat_le] at digit
    rw [UInt16.lt_iff_toNat_lt]
    simp at *
    omega

theorem ofInt_plain {n : Int} {c : UInt16} (h : c ∈ Text.ofInt n) :
    c = 45 ∨ Text.isHexDigit c = true :=
  (Text.mem_ofInt h).imp_right fun digit => by rw [Text.isHexDigit, digit]; rfl

theorem nonce_plain {s : Text} (h : isNonce s = true) {c : UInt16} (hc : c ∈ s) :
    c = 45 ∨ Text.isHexDigit c = true := by
  simp only [isNonce, Bool.and_eq_true, List.all_eq_true] at h
  exact .inr (h.2 c hc)

/-- The parts of a signed text have no separator in them. -/
theorem SignedMessage.WellFormed.parts (h : m.WellFormed) :
    ∀ part ∈ [Text.ofInt m.timestamp, m.nonce, hex (P.sha256 m.body)],
      ∀ c ∈ part, c = 45 ∨ Text.isHexDigit c = true := by
  simp only [List.mem_cons, List.not_mem_nil, or_false, forall_eq_or_imp, forall_eq]
  exact ⟨fun c => ofInt_plain, fun c => nonce_plain h.nonce,
    fun c hc => .inr (isHexDigit_of_mem_hex hc)⟩

theorem SignedMessage.WellFormed.ascii (h : m.WellFormed) : ∀ c ∈ m.payload P, c < 128 := by
  intro c hc
  simp only [payload, List.intercalate_cons_cons, List.intercalate_singleton, List.append_assoc,
    List.mem_append, List.mem_singleton] at hc
  have parts := h.parts (P := P)
  simp only [List.mem_cons, List.not_mem_nil, or_false, forall_eq_or_imp, forall_eq] at parts
  rcases hc with ts | rfl | nonce | rfl | digest
  · exact ascii_of_plain (parts.1 c ts)
  · decide
  · exact ascii_of_plain (parts.2.1 c nonce)
  · decide
  · exact ascii_of_plain (parts.2.2 c digest)

/-- So the text says what was signed. -/
theorem SignedMessage.payload_inj {m' : SignedMessage} (h : m.WellFormed) (h' : m'.WellFormed)
    (same : m'.payload P = m.payload P) : m'.timestamp = m.timestamp ∧ m'.nonce = m.nonce ∧
      P.sha256 m'.body = P.sha256 m.body := by
  have split : ∀ {m : SignedMessage}, m.WellFormed → (m.payload P).splitOn 46 =
      [Text.ofInt m.timestamp, m.nonce, hex (P.sha256 m.body)] := fun h =>
    List.splitOn_intercalate 46 (fun part hp => dot_not_mem (h.parts part hp)) (List.cons_ne_nil _ _)
  have parts := split h'
  rw [same, split h] at parts
  simp only [List.cons.injEq, and_true] at parts
  exact ⟨Text.ofInt_injective parts.1.symm, parts.2.1.symm, hex_injective parts.2.2.symm⟩

/-! ## Accepted -/

/-- The largest time value of a JavaScript `Date`. -/
def maxTimeValue : Time := 8640000000000000

/-- The timestamp is within the window at this time. -/
def InWindow (config : Config) (now : Time) (ts : Int) : Prop :=
  (((now / 1000 : Nat) : Int) - ts).natAbs ≤ config.inboundTimestampSkewSeconds

/-- The row is found under the receiver's id, is enabled, and holds the key. -/
structure Provisioned (unwrap : Text → Text → Option Text) (receivers : List GatewayReceiver)
    (id key : Text) (row : GatewayReceiver) : Prop where
  found : receivers.find? (fun r => r.id = id) = some row
  enabled : row.enabled = true
  keyed : unwrap row.secretWrapped (text "receiver:" ++ row.id) = some key

/-- No live entry of Redis has the nonce of the request. -/
def FreshNonce (nonces : List RedisEntry) (now : Time) (input : VerifyHmacInput) : Prop :=
  ∀ e ∈ nonces, e.key = nonceKey input → e.expiresAt ≤ now

theorem near_clock {now skew : Nat} {ts : Int} (clock : now ≤ 8640000000000000)
    (narrow : skew ≤ 900) (window : (((now / 1000 : Nat) : Int) - ts).natAbs ≤ skew) :
    ts.natAbs < 2 ^ 53 := by
  omega

theorem finite_of_inWindow {now : Time} {ts : Int} (clock : now ≤ maxTimeValue)
    (window : InWindow config now ts) : Text.Finite ts :=
  Nat.lt_of_lt_of_le (near_clock clock config.timestampSkew_range.2 window) (by decide +kernel)

theorem checkHeaders_input (h : m.WellFormed) {now : Time} (clock : now ≤ maxTimeValue)
    (window : InWindow config now m.timestamp) :
    checkHeaders config now (m.input P key) = .ok m.timestamp := by
  have signature : isSignature (m.signature P key) = true :=
    isSignature_hex (P.hmacSha256_length _ _)
  have ts := Text.parseInt_ofInt (finite_of_inWindow clock window)
  simp only [checkHeaders, SignedMessage.input, h.receiver, h.nonce, signature, ts, Bool.not_true,
    Bool.false_eq_true, if_false]
  exact if_neg (Nat.not_lt.mpr window)

theorem signedPayload_crypto {input : VerifyHmacInput} {ts : Int} :
    signedPayload (P.crypto unwrap) input ts =
      SignedMessage.payload P ⟨input.receiverId, ts, input.nonceHeader, input.rawBody⟩ := by
  rw [signedPayload, template_eq]
  rfl

theorem checkSignature_input {receivers : List GatewayReceiver} {row : GatewayReceiver}
    (h : Provisioned unwrap receivers m.receiver key row) :
    checkSignature (P.crypto unwrap) receivers (m.input P key) m.timestamp =
      .ok ⟨row.id, row.appId, row.msisdn⟩ := by
  have found : receivers.find? (fun r => r.id = (m.input P key).receiverId) = some row := h.found
  have keyed : (P.crypto unwrap).unwrap row.secretWrapped (text "receiver:" ++ row.id) =
    some key := h.keyed
  simp only [checkSignature, found, h.enabled, keyed, Bool.not_true, Bool.false_eq_true, if_false]
  exact if_pos (congrArg (fun s => hex (P.hmacSha256 (P.utf8 key) (P.utf8 s))) signedPayload_crypto)

theorem redisSet_fresh {store : GatewayStore} {now : Time} {input : VerifyHmacInput}
    {seconds : Nat} (fresh : FreshNonce store.nonces now input) :
    redisSet store.nonces (nonceKey input) seconds now =
      (true, ⟨nonceKey input, now + seconds * 1000⟩ ::
        store.nonces.filter (·.key ≠ nonceKey input)) := by
  rw [redisSet, if_neg]
  intro live
  obtain ⟨e, he, live⟩ := List.any_eq_true.mp live
  obtain ⟨same, live⟩ := of_decide_eq_true live
  exact absurd (fresh e he same) (Nat.not_le.mpr live)

/-! ## Rejected -/

theorem checkHeaders_ok {now : Time} {input : VerifyHmacInput} {ts : Int}
    (h : checkHeaders config now input = .ok ts) :
    isReceiverId input.receiverId = true ∧ isNonce input.nonceHeader = true ∧
      Text.parseInt input.timestampHeader = some ts := by
  unfold checkHeaders at h
  split at h
  · exact nomatch h
  · next receiver =>
    split at h
    · exact nomatch h
    · next nonce =>
      split at h
      · exact nomatch h
      · split at h
        · exact nomatch h
        · next parsed =>
          dsimp only at h
          split at h
          · exact nomatch h
          · obtain rfl := Except.ok.inj h
            exact ⟨by simpa using receiver, by simpa using nonce, parsed⟩

theorem checkSignature_ok {C : Crypto} {receivers : List GatewayReceiver}
    {input : VerifyHmacInput} {ts : Int} {receiver : VerifiedReceiver}
    (h : checkSignature C receivers input ts = .ok receiver) :
    ∃ row ∈ receivers, row.id = input.receiverId ∧ ∃ k,
      C.unwrap row.secretWrapped (text "receiver:" ++ row.id) = some k ∧
      C.hmacSha256Hex k (signedPayload C input ts) = input.signatureHeader := by
  unfold checkSignature at h
  split at h
  · exact nomatch h
  · next row found =>
    split at h
    · exact nomatch h
    · split at h
      · exact nomatch h
      · next k keyed =>
        split at h
        · next same =>
          exact ⟨row, List.mem_of_find?_eq_some found, by simpa using List.find?_some found, k,
            keyed, same⟩
        · exact nomatch h

/-- The request bears the signature of the message but is not a request for it. -/
structure Tampered (P : Primitives) (m : SignedMessage) (key : Text) (input : VerifyHmacInput) :
    Prop where
  signature : input.signatureHeader = m.signature P key
  differs : input.rawBody ≠ m.body ∨ input.nonceHeader ≠ m.nonce ∨
    input.receiverId ≠ m.receiver ∨ Text.parseInt input.timestampHeader ≠ some m.timestamp

/-- Only this receiver has the key. -/
def SoleHolder (P : Primitives) (unwrap : Text → Text → Option Text) (key id : Text)
    (receivers : List GatewayReceiver) : Prop :=
  ∀ r ∈ receivers, ∀ k, unwrap r.secretWrapped (text "receiver:" ++ r.id) = some k →
    P.utf8 k = P.utf8 key → r.id = id

/-- The check of a tampered request fails at the signature. -/
theorem Tampered.checkSignature {input : VerifyHmacInput} (tampered : Tampered P m key input)
    (h : m.WellFormed) (ideal : P.Ideal (P.utf8 key) (P.utf8 (m.payload P)) m.body)
    {receivers : List GatewayReceiver} (sole : SoleHolder P unwrap key m.receiver receivers)
    {ts : Int} (id : isReceiverId input.receiverId = true)
    (nonce : isNonce input.nonceHeader = true)
    (parsed : Text.parseInt input.timestampHeader = some ts) {receiver : VerifiedReceiver} :
    checkSignature (P.crypto unwrap) receivers input ts ≠ .ok receiver := by
  intro ok
  obtain ⟨row, hrow, same, k, keyed, signed⟩ := checkSignature_ok ok
  rw [tampered.signature, signedPayload_crypto] at signed
  obtain ⟨sameKey, sameText⟩ := ideal.hmac _ _ (hex_injective signed)
  let m' : SignedMessage := ⟨input.receiverId, ts, input.nonceHeader, input.rawBody⟩
  have h' : m'.WellFormed := ⟨id, nonce⟩
  have payload : m'.payload P = m.payload P := P.utf8_inj h'.ascii h.ascii sameText
  obtain ⟨timestamp, nonce, digest⟩ := SignedMessage.payload_inj h h' payload
  have holder : row.id = m.receiver := sole row hrow k keyed sameKey
  rcases tampered.differs with body | other | receiver | time
  · exact body (ideal.sha _ digest)
  · exact other nonce
  · exact receiver (same.symm.trans holder)
  · exact time (parsed.trans (congrArg some timestamp))

/-- What a call on this request has reached when its signature cannot have been checked. -/
def Unverified (input : VerifyHmacInput) (c : GatewayCall) : Prop :=
  ∀ phase, c = .verify input phase → (∀ r, phase ≠ .setNonce r) ∧
    (∀ r, phase ≠ .done (.ok r)) ∧ ∀ ts, phase = .select ts →
      isReceiverId input.receiverId = true ∧ isNonce input.nonceHeader = true ∧
        Text.parseInt input.timestampHeader = some ts

/-- A call on a tampered request stays unverified. -/
theorem Tampered.turn {input : VerifyHmacInput} (tampered : Tampered P m key input)
    (h : m.WellFormed) (ideal : P.Ideal (P.utf8 key) (P.utf8 (m.payload P)) m.body)
    {store : GatewayStore} (sole : SoleHolder P unwrap key m.receiver store.receivers)
    {c : GatewayCall} {move : GatewayMove} {t : Turn GatewayStore GatewayCall}
    (before : Unverified input c) (ht : c.turn (P.crypto unwrap) config store move = some t) :
    Unverified input t.call := by
  have failed : Unverified input c.failed := by
    intro phase same
    cases c with
    | verify input' phase' =>
      obtain ⟨_, rfl⟩ := GatewayCall.verify.inj same
      refine ⟨?_, ?_, ?_⟩ <;> rintro _ ⟨⟩
    | putReceiver row isDone => cases same
  have operation : ∀ now t, c.operation (P.crypto unwrap) config store now = some t →
      Unverified input t.call := by
    intro now t ht phase same
    simp only [GatewayCall.operation, Option.ite_none_left_eq_some] at ht
    obtain ⟨_, ht⟩ := ht
    cases c with
    | verify input' phase' =>
      obtain ⟨⟨next, nonces⟩, hr, rfl⟩ := Option.map_eq_some_iff.mp ht
      obtain ⟨rfl, rfl⟩ := GatewayCall.verify.inj same
      obtain ⟨notSet, notOk, checked⟩ := before phase' rfl
      cases phase' with
      | check =>
        simp only [verifyGatewayHmac] at hr
        split at hr
        · obtain ⟨rfl, _⟩ := Prod.mk.inj (Option.some.inj hr)
          refine ⟨?_, ?_, ?_⟩ <;> rintro _ ⟨⟩
        · next ts ok =>
          obtain ⟨rfl, _⟩ := Prod.mk.inj (Option.some.inj hr)
          refine ⟨by rintro _ ⟨⟩, by rintro _ ⟨⟩, fun ts' same => ?_⟩
          obtain rfl := HmacPhase.select.inj same
          exact checkHeaders_ok ok
      | select ts =>
        obtain ⟨id, nonce, parsed⟩ := checked ts rfl
        simp only [verifyGatewayHmac] at hr
        split at hr
        · obtain ⟨rfl, _⟩ := Prod.mk.inj (Option.some.inj hr)
          refine ⟨?_, ?_, ?_⟩ <;> rintro _ ⟨⟩
        · next ok => exact absurd ok (tampered.checkSignature h ideal sole id nonce parsed)
      | setNonce receiver => exact absurd rfl (notSet receiver)
      | done result => cases hr
      | failed => cases hr
    | putReceiver row isDone =>
      cases isDone with
      | false =>
        obtain rfl := Option.some.inj ht
        cases same
      | true => cases ht
  cases move with
  | run now => exact operation now t ht
  | error =>
    simp only [GatewayCall.turn, Option.ite_none_right_eq_some, Option.some.injEq] at ht
    obtain ⟨_, rfl⟩ := ht
    exact failed
  | lost now =>
    obtain ⟨t', _, rfl⟩ := Option.map_eq_some_iff.mp ht
    exact failed

/-- So none is accepted in a run in which nobody else has the key. -/
theorem Tampered.rejected {input : VerifyHmacInput} (tampered : Tampered P m key input)
    (h : m.WellFormed) (ideal : P.Ideal (P.utf8 key) (P.utf8 (m.payload P)) m.body)
    {log : List (Gateway × Act GatewayRequest GatewayMove)} {p : Gateway}
    (run : GatewayRun (P.crypto unwrap) config log p)
    (sole : ∀ e ∈ log, SoleHolder P unwrap key m.receiver e.1.store.receivers) {i : Nat}
    {c : GatewayCall} (hc : p.calls[i]? = some c) : ¬c.Accepted input := by
  have unverified : ∀ (i : Nat) c, p.calls[i]? = some c → Unverified input c := by
    refine run.invariant_of (fun p => ∀ (i : Nat) c, p.calls[i]? = some c → Unverified input c)
      (fun p _ => SoleHolder P unwrap key m.receiver p.store.receivers)
      (fun i c hc => by simp [Gateway.init] at hc) ?_ sole
    intro p a q before sole hs i c hc
    cases a with
    | arrive r =>
      obtain ⟨n, hn, rfl⟩ := Pool.step_arrive hs
      rcases List.mem_append.mp (List.mem_of_getElem? hc) with old | new
      · obtain ⟨j, hj⟩ := List.mem_iff_getElem?.mp old
        exact before j c hj
      · obtain rfl := List.mem_singleton.mp new
        intro phase same
        subst same
        cases r with
        | verify input' =>
          obtain ⟨rfl, rfl⟩ := GatewayCall.verify.inj (Option.some.inj hn)
          refine ⟨?_, ?_, ?_⟩ <;> rintro _ ⟨⟩
        | putReceiver row => cases hn
    | turn j move =>
      obtain ⟨x, t, hx, ht, rfl⟩ := Pool.step_turn hs
      rcases Pool.turned_call hx hc with ⟨_, old⟩ | ⟨_, rfl⟩ | ⟨_, new⟩
      · exact before i c old
      · exact tampered.turn h ideal sole (before j x hx) ht
      · rw [(gateway_turn ht).2.1] at new
        cases new
  rintro ⟨receiver, accepted⟩
  exact (unverified i c hc _ accepted).2.1 receiver rfl

/-! ## Agreement -/

/-- What either gateway sends is accepted when the receiver is there and enabled, the timestamp is
in the window and the nonce is fresh, each at the moment it is looked at. A request with the same
signature but another body, nonce, receiver or number for a timestamp never is. -/
theorem signatures_agree (unwrap : Text → Text → Option Text) (config : Config)
    {req : HttpRequest} (sent : Sends P receiver key m req) (id : isReceiverId receiver = true) :
    ∃ input, gatewayInput req = some input ∧
      (∀ (check select set : GatewayStore) (t₁ t₂ t₃ : Time) (row : GatewayReceiver),
        t₁ ≤ maxTimeValue → InWindow config t₁ m.timestamp →
        Provisioned unwrap select.receivers receiver key row →
        FreshNonce set.nonces t₃ input →
        let verify := verifyGatewayHmac (P.crypto unwrap) config
        let verified : VerifiedReceiver := ⟨row.id, row.appId, row.msisdn⟩
        verify check t₁ input .check = some (.select m.timestamp, check.nonces) ∧
          verify select t₂ input (.select m.timestamp) =
            some (.setNonce verified, select.nonces) ∧
          ∃ nonces, verify set t₃ input (.setNonce verified) =
            some (.done (.ok verified), nonces)) ∧
      ∀ input' : VerifyHmacInput, input'.signatureHeader = input.signatureHeader →
        (input'.rawBody ≠ m.body ∨ input'.nonceHeader ≠ m.nonce ∨ input'.receiverId ≠ receiver ∨
          Text.parseInt input'.timestampHeader ≠ some m.timestamp) →
        P.Ideal (P.utf8 key) (P.utf8 (m.payload P)) m.body →
        ∀ log p, GatewayRun (P.crypto unwrap) config log p →
          (∀ e ∈ log, SoleHolder P unwrap key receiver e.1.store.receivers) →
          ∀ (i : Nat) (verified : VerifiedReceiver),
            p.calls[i]? ≠ some (.verify input' (.done (.ok verified))) := by
  obtain ⟨h, rfl⟩ := sent.wellFormed id
  rw [sent.request_eq]
  refine ⟨m.input P key, gatewayInput_request h key, ?_, ?_⟩
  · intro check select set t₁ t₂ t₃ row clock window row_found fresh verify verified
    refine ⟨?_, ?_, ?_⟩
    · simp only [verify, verifyGatewayHmac, checkHeaders_input h clock window]
    · simp only [verify, verifyGatewayHmac, checkSignature_input row_found, verified]
    · simp only [verify, verifyGatewayHmac, redisSet_fresh fresh, if_true]
      exact ⟨_, rfl⟩
  · intro input' signature differs ideal log p run sole i verified accepted
    exact Tampered.rejected ⟨signature, differs⟩ h ideal run sole accepted ⟨verified, rfl⟩

namespace SignatureScript

def digest : List UInt8 :=
  [196, 14, 16, 171, 105, 205, 57, 47, 14, 114, 67, 86, 95, 228, 5, 186, 140, 26, 233, 154, 224,
   147, 236, 64, 198, 123, 77, 181, 233, 92, 143, 27]

def mac : List UInt8 :=
  [11, 236, 146, 102, 55, 251, 53, 88, 109, 36, 96, 212, 89, 3, 186, 9, 71, 198, 178, 152, 51,
   56, 35, 39, 190, 171, 60, 167, 226, 209, 35, 173]

def signingKey : Text := text "gw_live_k"

def bytes (s : Text) : List UInt8 := s.map UInt16.toUInt8

/-- What the gateway signs for the heartbeat. -/
def message : Text := text "1700000000." ++ GatewayScript.nonce ++ text "." ++ GatewayScript.bodyHash

/-- The values of the real functions on this request. -/
def primitives : Primitives where
  utf8 := bytes
  sha256 data := if data = GatewayScript.heartbeat then digest else List.replicate 32 0
  hmacSha256 k m := if k = bytes signingKey ∧ m = bytes message then mac else List.replicate 32 0
  utf8_ascii _ _ := rfl
  sha256_length data := by
    split
    · rfl
    · exact List.length_replicate
  hmacSha256_length k m := by
    split
    · rfl
    · exact List.length_replicate

theorem ideal : primitives.Ideal (bytes signingKey) (bytes message) GatewayScript.heartbeat where
  hmac k m same := by
    by_contra other
    have there : primitives.hmacSha256 (bytes signingKey) (bytes message) = mac := by decide
    rw [there, show primitives.hmacSha256 k m = List.replicate 32 0 from if_neg other] at same
    exact absurd same (by decide)
  sha d same := by
    by_contra other
    have there : primitives.sha256 GatewayScript.heartbeat = digest := by decide
    rw [there, show primitives.sha256 d = List.replicate 32 0 from if_neg other] at same
    exact absurd same (by decide)

def random : List UInt8 :=
  [0x00, 0x11, 0x22, 0x33, 0x44, 0x55, 0x66, 0x77, 0x88, 0x99, 0xaa, 0xbb, 0xcc, 0xdd, 0xee, 0xff]

/-- The heartbeat as the GSM gateway posts it. -/
def posted : HttpRequest := Gsm.signedRequest primitives (text "rcv_1") signingKey
  GatewayScript.heartbeat none none 1700000000 random

theorem sent : Sends primitives (text "rcv_1") signingKey
    ⟨text "rcv_1", 1700000000, GatewayScript.nonce, GatewayScript.heartbeat⟩ posted :=
  .gsm GatewayScript.heartbeat none none 1700000000 random rfl nofun

theorem payload : SignedMessage.payload primitives
    ⟨text "rcv_1", 1700000000, GatewayScript.nonce, GatewayScript.heartbeat⟩ = message := by
  decide +kernel

/-- The same request with a space after its body. -/
def altered : VerifyHmacInput :=
  { GatewayScript.request with rawBody := GatewayScript.heartbeat ++ [32] }

/-- The receiver is provisioned, and a request is posted a second after it was signed. -/
def result (input : VerifyHmacInput) :
    Option (List (Gateway × Act GatewayRequest GatewayMove) × Gateway) :=
  exec (Pool.step (gateway (primitives.crypto GatewayScript.crypto.unwrap) .default)) .init
    [.arrive (.putReceiver GatewayScript.receiver), .turn 0 (.run 1700000000300),
      .arrive (.verify input), .turn 1 (.run 1700000001000), .turn 1 (.run 1700000001000)]

/-- The receivers at each step are none or the one that has the key. -/
def holders (e : Gateway × Act GatewayRequest GatewayMove) : Bool :=
  e.1.store.receivers.all fun r => r.id = text "rcv_1"

theorem altered_run : ∃ log p,
    GatewayRun (primitives.crypto GatewayScript.crypto.unwrap) .default log p ∧
    (∀ e ∈ log, holders e = true) ∧
    p.calls[1]? = some (.verify altered (.done (.error .badSignature))) := by
  have executed : (result altered).any (fun r => decide ((∀ e ∈ r.1, holders e = true) ∧
      r.2.calls[1]? = some (.verify altered (.done (.error .badSignature))))) = true := by
    decide +kernel
  exact run_of_exec_any executed

end SignatureScript

/-- The heartbeat is accepted a second later, and with its body altered it is not. -/
theorem signatures_agree_script : ∃ input,
    gatewayInput SignatureScript.posted = some input ∧
    (∃ nonces, verifyGatewayHmac (SignatureScript.primitives.crypto GatewayScript.crypto.unwrap)
      .default ⟨1700000001000, [GatewayScript.receiver], []⟩ 1700000001000 input
      (.setNonce ⟨text "rcv_1", text "app_1", text "+963110000000"⟩) =
        some (.done (.ok ⟨text "rcv_1", text "app_1", text "+963110000000"⟩), nonces)) ∧
    ∃ log p, GatewayRun (SignatureScript.primitives.crypto GatewayScript.crypto.unwrap) .default
      log p ∧
      p.calls[1]? = some (.verify SignatureScript.altered (.done (.error .badSignature))) ∧
      ∀ verified,
        p.calls[1]? ≠ some (.verify SignatureScript.altered (.done (.ok verified))) := by
  obtain ⟨input, read, accepts, rejects⟩ := signatures_agree GatewayScript.crypto.unwrap .default
    SignatureScript.sent (by decide)
  have posted : gatewayInput SignatureScript.posted = some GatewayScript.request := by
    decide +kernel
  obtain rfl := Option.some.inj (posted.symm.trans read)
  obtain ⟨log, p, run, alone, refused⟩ := SignatureScript.altered_run
  refine ⟨_, posted, ?_, log, p, run, refused, ?_⟩
  · exact (accepts ⟨0, [], []⟩ ⟨0, [GatewayScript.receiver], []⟩
      ⟨1700000001000, [GatewayScript.receiver], []⟩ 1700000001000 1700000001000 1700000001000
      GatewayScript.receiver (by decide)
      (show _ ≤ _ by decide) ⟨by decide, by decide, by decide +kernel⟩
      (fun e he => nomatch he)).2.2
  · have ideal := SignatureScript.ideal
    rw [← SignatureScript.payload] at ideal
    exact rejects SignatureScript.altered rfl (.inl (by decide)) ideal _ _ run
      (fun e he r hr k _ _ => of_decide_eq_true (List.all_eq_true.mp (alone e he) r hr)) 1

end Syrotp
