import Syrotp.Server.Proofs.Writes

/-!
# What a public read gives away

Two databases may differ in the codes of their verifications, in the receivers these were routed to
and in the digits of their phones that `maskPhone` hides. The reads and the events are the same for
both, but for the hosted page of a verification that is still pending.
-/

namespace Syrotp

variable {db db' : Db} {v v' : Verification} {now : Time}

/-! ## Masked phones -/

/-- The places of a phone that `maskPhone` does not show. -/
def maskHides (e164 : Text) (i : Nat) : Bool :=
  !Text.startsWith e164 (text "+") || e164.length < 7 ||
    (min 6 (e164.length - 4) ≤ i && i < e164.length - 3)

/-- The phones differ in digits that `maskPhone` hides, and in nothing else. -/
def SamePhone (p p' : Text) : Prop :=
  p.length = p'.length ∧ ∀ i < p.length, p[i]? = p'[i]? ∨
    maskHides p i = true ∧ p[i]?.any Text.isDigit = true ∧ p'[i]?.any Text.isDigit = true

instance (p p' : Text) : Decidable (SamePhone p p') :=
  inferInstanceAs (Decidable (_ ∧ _))

theorem SamePhone.shown {p p' : Text} (h : SamePhone p p') {i : Nat}
    (shown : maskHides p i = false) : p[i]? = p'[i]? := by
  by_cases inside : i < p.length
  · rcases h.2 i inside with same | ⟨hidden, _⟩
    · exact same
    · rw [shown] at hidden
      exact Bool.noConfusion hidden
  · have outside : p'.length ≤ i := by
      rw [← h.1]
      exact Nat.le_of_not_lt inside
    rw [List.getElem?_eq_none (Nat.le_of_not_lt inside), List.getElem?_eq_none outside]

theorem startsWith_plus {p : Text} : Text.startsWith p (text "+") = true ↔ p[0]? = some 43 := by
  have plus : text "+" = [43] := by decide
  rw [Text.startsWith, plus]
  cases p with
  | nil => decide
  | cons c p =>
    rw [List.isPrefixOf_cons_cons, List.isPrefixOf_nil_left, Bool.and_true, beq_iff_eq,
      List.getElem?_cons_zero, Option.some.injEq, eq_comm]

/-- A sign is no digit, so both phones have one or neither has. -/
theorem SamePhone.startsWith {p p' : Text} (h : SamePhone p p') :
    Text.startsWith p (text "+") = Text.startsWith p' (text "+") := by
  have first : p[0]? = some 43 ↔ p'[0]? = some 43 := by
    by_cases inside : 0 < p.length
    · rcases h.2 0 inside with same | ⟨_, digit, digit'⟩
      · rw [same]
      · apply iff_of_false
        · intro plus
          rw [plus] at digit
          exact absurd digit (by decide)
        · intro plus
          rw [plus] at digit'
          exact absurd digit' (by decide)
    · have empty : p.length = 0 := by omega
      have empty' : p'.length = 0 := h.1 ▸ empty
      rw [List.length_eq_zero_iff.mp empty, List.length_eq_zero_iff.mp empty']
  rw [Bool.eq_iff_iff, startsWith_plus, startsWith_plus]
  exact first

/-- Phones that differ in hidden digits are masked alike. -/
theorem maskPhone_congr {p p' : Text} (h : SamePhone p p') : maskPhone p = maskPhone p' := by
  unfold maskPhone
  rw [← h.startsWith, ← h.1]
  by_cases all : (!Text.startsWith p (text "+") || decide (p.length < 7)) = true
  · rw [if_pos all, if_pos all]
  · rw [if_neg all, if_neg all]
    have hides : ∀ i, maskHides p i = (decide (min 6 (p.length - 4) ≤ i) &&
        decide (i < p.length - 3)) := by
      intro i
      rw [maskHides, Bool.eq_false_iff.mpr all, Bool.false_or]
    have front : p.take (min 6 (p.length - 4)) = p'.take (min 6 (p.length - 4)) := by
      apply List.ext_getElem?
      intro i
      rw [List.getElem?_take, List.getElem?_take]
      by_cases early : i < min 6 (p.length - 4)
      · rw [if_pos early, if_pos early]
        apply h.shown
        rw [hides, decide_eq_false (Nat.not_le.mpr early), Bool.false_and]
      · rw [if_neg early, if_neg early]
    have back : p.drop (p.length - 3) = p'.drop (p.length - 3) := by
      apply List.ext_getElem?
      intro i
      rw [List.getElem?_drop, List.getElem?_drop]
      apply h.shown
      rw [hides, decide_eq_false (Nat.not_lt.mpr (Nat.le_add_right _ i)), Bool.and_false]
    simp only [front, back]

/-! ## Rows that a reader cannot tell apart -/

/-- The rows differ in the code, the receiver and hidden digits of the phone, and in nothing
else. -/
structure SameButSecret (v v' : Verification) : Prop where
  phone : SamePhone v.phoneE164 v'.phoneE164
  rest : v' = { v with
    phoneE164 := v'.phoneE164
    code := v'.code
    receiverId := v'.receiverId
    receiverMsisdnSnapshot := v'.receiverMsisdnSnapshot
    receiverOperatorSnapshot := v'.receiverOperatorSnapshot }

/-- The verifications correspond; of the other tables nothing is asked. -/
def SamePublic (db db' : Db) : Prop :=
  List.Forall₂ SameButSecret db.verifications db'.verifications

/-- A query that looks at neither secret finds rows that correspond, or none in either table. -/
theorem find?_same {p : Verification → Bool} {rows rows' : List Verification}
    (same : List.Forall₂ SameButSecret rows rows')
    (blind : ∀ v v', SameButSecret v v' → p v = p v') :
    Option.Rel SameButSecret (rows.find? p) (rows'.find? p) := by
  induction same with
  | nil => exact .none
  | @cons v v' rows rows' h _ ih =>
    rw [List.find?_cons, List.find?_cons, ← blind v v' h]
    cases p v with
    | true => exact .some h
    | false => exact ih

theorem map_same {β : Type*} {f : Verification → β} {row row' : Option Verification}
    (same : Option.Rel SameButSecret row row')
    (alike : ∀ v v', SameButSecret v v' → f v = f v') : row.map f = row'.map f := by
  cases same with
  | none => rfl
  | some h => exact congrArg some (alike _ _ h)

/-- What a query may look at. -/
theorem SameButSecret.key (h : SameButSecret v v') :
    v'.id = v.id ∧ v'.appId = v.appId ∧ v'.status = v.status ∧ v'.expiresAt = v.expiresAt ∧
      v'.verifiedAt = v.verifiedAt := by
  rw [h.rest]
  exact ⟨rfl, rfl, rfl, rfl, rfl⟩

theorem row_same (same : SamePublic db db') (r : Read) :
    Option.Rel SameButSecret (r.row db) (r.row db') := by
  cases r with
  | getVerification appId id =>
    apply find?_same same
    intro v v' h
    rw [h.key.1, h.key.2.1]
  | getHostedVerification id =>
    apply find?_same same
    intro v v' h
    rw [h.key.1]
  | getHostedVerificationStatus id =>
    apply find?_same same
    intro v v' h
    rw [h.key.1]

theorem lapsed_same (h : SameButSecret v v') : lapsed v' now = lapsed v now := by
  simp only [lapsed, h.key]

theorem effectiveStatus_same (h : SameButSecret v v') :
    effectiveStatus v' now = effectiveStatus v now := by
  rw [effectiveStatus, effectiveStatus, lapsed_same h, h.key.2.2.1]

/-! ## The views of a row -/

theorem publicView_same (h : SameButSecret v v') :
    publicView v now = publicView v' now := by
  rw [publicView, publicView, ← effectiveStatus_same h, maskPhone_congr h.phone, h.rest]

/-- The hosted page shows the receiver and the message while the row is pending, and not later. -/
theorem hostedView_same {joined joined' : Option Text} (h : SameButSecret v v')
    (closed : effectiveStatus v now ≠ .pending) :
    hostedView v joined now = hostedView v' joined' now := by
  simp only [hostedView]
  rw [effectiveStatus_same h, if_neg closed, if_neg closed, if_neg closed, if_neg closed,
    maskPhone_congr h.phone, h.rest]

theorem eventData_same (h : SameButSecret v v') (eventType : VerificationEventType) :
    buildVerificationEventData v eventType = buildVerificationEventData v' eventType := by
  rw [buildVerificationEventData, buildVerificationEventData, maskPhone_congr h.phone, h.rest]

/-! ## The event of a transition -/

/-- The row that the transaction emitting an event of the type leaves. -/
def Verification.resolved (v : Verification) (now : Time) (inboundId : Id) :
    VerificationEventType → Verification
  | .verified => v.claimed inboundId now
  | .cancelled => { v with status := .cancelled, cancelledAt := some now }
  | .expired => { v with status := .expired }

theorem resolved_same (h : SameButSecret v v') {inboundId : Id}
    (eventType : VerificationEventType) :
    SameButSecret (v.resolved now inboundId eventType) (v'.resolved now inboundId eventType) := by
  cases eventType <;> refine ⟨h.phone, ?_⟩ <;> rw [h.rest] <;> rfl

/-- The data of the event that a transition of the verification emits. -/
def emittedData (db : Db) (now : Time) (inboundId id : Id) (eventType : VerificationEventType) :
    Option VerificationEventData :=
  (db.verifications.find? fun v => v.id = id ∧ v.status = .pending).map fun v =>
    buildVerificationEventData (v.resolved now inboundId eventType) eventType

/-- An event that the code commits has such data. -/
theorem emittedData_of_justified {env : Env} {row : Verification} {event : WebhookEvent}
    {deliveries : List WebhookDelivery} {inbound : Option Id}
    (J : Justified env db (.resolveVerification row event deliveries inbound))
    (unique : (db.verifications.map (·.id)).Nodup) : ∃ now inboundId,
      some event.payload.data = emittedData db now inboundId row.id event.eventType := by
  obtain ⟨v, hv, eventType, eventId, t, ds, pending, resolves, _, _, rfl, _⟩ := J.resolve
  have found : db.verifications.find? (fun v => v.id = row.id ∧ v.status = .pending) =
      some v := by
    cases found : db.verifications.find? fun v => v.id = row.id ∧ v.status = .pending with
    | none =>
      have none := List.find?_eq_none.mp found v hv
      simp [resolves.id, pending] at none
    | some x =>
      have met := List.find?_some found
      have same : x.id = v.id := by
        rw [← resolves.id]
        exact (of_decide_eq_true met).1
      rw [List.inj_on_of_nodup_map unique (List.mem_of_find?_eq_some found) hv same]
  have left : ∃ now inboundId, row = v.resolved now inboundId eventType := by
    cases resolves with
    | cancelled now => exact ⟨now, v.id, rfl⟩
    | expired => exact ⟨t, v.id, rfl⟩
    | verified i now before => exact ⟨now, i, rfl⟩
  obtain ⟨now, inboundId, same⟩ := left
  refine ⟨now, inboundId, ?_⟩
  change some (buildVerificationEventData row eventType) =
    emittedData db now inboundId row.id eventType
  rw [emittedData, found, Option.map_some, ← same]

/-! ## Reads -/

/-- An expiry is started by the row alone. -/
theorem due_select (db : Db) (now : Time) (r : Read) : due now (r.select db) =
    (r.row db).bind fun row => if lapsed row now then some row.id else none := by
  unfold Read.select
  cases r.row db with
  | none => rfl
  | some row => cases r <;> rfl

/-- A reader who has no access to the database cannot tell the states apart: the answers are the
same, the reads start the same expiries, and the events say the same. What an event says that is
committed in the one state can be read off the other. -/
structure Indistinguishable (db db' : Db) (now : Time) : Prop where
  verification : ∀ appId id,
    Read.answer db now (.getVerification appId id) = Read.answer db' now (.getVerification appId id)
  hostedStatus : ∀ id, Read.answer db now (.getHostedVerificationStatus id) =
    Read.answer db' now (.getHostedVerificationStatus id)
  hosted : ∀ id, (∀ row, Read.row db (.getHostedVerification id) = some row →
      effectiveStatus row now ≠ .pending) →
    Read.answer db now (.getHostedVerification id) = Read.answer db' now (.getHostedVerification id)
  expiry : ∀ r : Read, r.expires db now = r.expires db' now
  event : ∀ inboundId id eventType,
    emittedData db now inboundId id eventType = emittedData db' now inboundId id eventType
  emitted : ∀ env row event deliveries inbound,
    Justified env db (.resolveVerification row event deliveries inbound) →
    (db.verifications.map (·.id)).Nodup → ∃ now inboundId,
      some event.payload.data = emittedData db' now inboundId row.id event.eventType

/-- States that differ in codes, receivers and hidden digits cannot be told apart by reading. -/
theorem reads_hide_code (same : SamePublic db db') (now : Time) :
    Indistinguishable db db' now := by
  have event : ∀ now inboundId id eventType,
      emittedData db now inboundId id eventType = emittedData db' now inboundId id eventType := by
    intro now inboundId id eventType
    apply map_same
    · apply find?_same same
      intro v v' h
      rw [h.key.1, h.key.2.2.1]
    · intro v v' h
      exact eventData_same (resolved_same h eventType) eventType
  refine ⟨?_, ?_, ?_, ?_, event now, ?_⟩
  · intro appId id
    have row := row_same same (.getVerification appId id)
    simp only [Read.answer, Read.select, Read.tell]
    generalize Read.row db (.getVerification appId id) = found at row ⊢
    generalize Read.row db' (.getVerification appId id) = found' at row ⊢
    cases row with
    | none => rfl
    | some h => simp only [Option.map_some, publicView_same h]
  · intro id
    have row := row_same same (.getHostedVerificationStatus id)
    simp only [Read.answer, Read.select, Read.tell, Option.map_map]
    rw [map_same row]
    intro v v' h
    simp only [Function.comp_apply]
    rw [effectiveStatus_same h, h.key.2.2.2.1, h.key.2.2.2.2]
  · intro id closed
    have row := row_same same (.getHostedVerification id)
    simp only [Read.answer, Read.select, Read.tell, Option.map_map]
    generalize Read.row db (.getHostedVerification id) = found at row closed ⊢
    generalize Read.row db' (.getHostedVerification id) = found' at row ⊢
    cases row with
    | none => rfl
    | some h =>
      rw [Option.map_some, Option.map_some, Function.comp_apply, Function.comp_apply,
        hostedView_same h (closed _ rfl)]
  · intro r
    have row := row_same same r
    rw [Read.expires, Read.expires, due_select, due_select]
    generalize r.row db = found at row ⊢
    generalize r.row db' = found' at row ⊢
    cases row with
    | none => rfl
    | some h => simp only [Option.bind_some, lapsed_same h, h.key.1]
  · intro env row ev deliveries inbound J unique
    obtain ⟨now', inboundId, made⟩ := emittedData_of_justified J unique
    exact ⟨now', inboundId, made.trans (event ..)⟩

namespace PublicReadsScript

/-- A verification that was routed to a receiver, pending until second 600. -/
def row (phone code : String) (receiver : Nat) : Verification where
  id := newId .verification 1
  appId := newId .app 1
  phoneE164 := text phone
  purpose := text "login"
  clientRef := none
  locale := none
  receiverId := newId .receiver receiver
  receiverMsisdnSnapshot := none
  receiverOperatorSnapshot := none
  code := text code
  messagePrefix := verifyPrefix
  status := .pending
  attempts := 0
  expiresAt := 600000
  verifiedAt := none
  cancelledAt := none
  matchedInboundId := none
  createdIp := none
  createdAt := 0

/-- The states differ in the code, the receiver and four digits. -/
def states : Db × Db :=
  ({ Db.empty with verifications := [row "+963991234567" "A7K9P2" 1] },
    { Db.empty with verifications := [row "+963998765567" "QQQQQQ" 2] })

end PublicReadsScript

/-- The moment at which the code is no longer shown. -/
theorem reads_hide_code_script :
    Indistinguishable PublicReadsScript.states.1 PublicReadsScript.states.2 600000 := by
  apply reads_hide_code
  exact List.Forall₂.cons ⟨by decide +kernel, rfl⟩ List.Forall₂.nil

end Syrotp
