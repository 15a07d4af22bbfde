import Syrotp.Server.Proofs.StartStep

/-!
# The statements of a bind, a cancel and an expiry

`BindStep`, `CancelStep` and `ExpireStep` say once what a statement of `startBinding`, of
`cancelVerification` and of `lazyExpireAndEmit` can do: where it leads, what it writes, and what it
found. Everything else about the three is proved by cases on them.
-/

namespace Syrotp

/-- The row `startBinding` drafts for a phone. -/
def StartBindingInput.draft (env : Env) (w : World) (input : StartBindingInput)
    (phoneE164 : Text) : PhoneBinding where
  id := newId .phoneBinding (w.ulid 0)
  appId := input.appId
  receiverId := input.receiverId
  phoneE164 := phoneE164
  status := .pending
  nonce := generateNonce w.random
  expiresAt := w.now + env.config.phoneBindingTtlSeconds * 1000
  boundAt := none
  revokedAt := none
  createdAt := w.now

def alreadyBound : ApiError :=
  conflict "already_bound" "phone is already verified-bound; revoke the existing binding first"

/-- One statement of a bind: the stage before, the stage after and what it writes. -/
inductive BindStep (env : Env) (v : View) (w : World) (input : StartBindingInput) :
    StartBindingPhase → StartBindingPhase → Option Write → Prop
  | unknown {phoneE164} :
      (∀ r ∈ v.db.receivers, ¬(r.id = input.receiverId ∧ r.appId = input.appId)) →
      BindStep env v w input (.selectReceiver phoneE164) (.done (.error (notFound "receiver"))) none
  | disabled {phoneE164 r} : r ∈ v.db.receivers → r.id = input.receiverId →
      r.appId = input.appId → r.enabled = false →
      BindStep env v w input (.selectReceiver phoneE164)
        (.done (.error (conflict "receiver_disabled" "receiver is disabled"))) none
  | selected {phoneE164 r} : r ∈ v.db.receivers → r.id = input.receiverId →
      r.appId = input.appId → r.enabled = true →
      BindStep env v w input (.selectReceiver phoneE164) (.selectVerified phoneE164 r.msisdn) none
  | bound {phoneE164 sendTo b} : b ∈ v.db.phoneBindings → b.appId = input.appId →
      b.phoneE164 = phoneE164 → b.status = .verified →
      BindStep env v w input (.selectVerified phoneE164 sendTo) (.done (.error alreadyBound)) none
  | drafted {phoneE164 sendTo} :
      (∀ b ∈ v.db.phoneBindings,
        ¬(b.appId = input.appId ∧ b.phoneE164 = phoneE164 ∧ b.status = .verified)) →
      BindStep env v w input (.selectVerified phoneE164 sendTo)
        (.insert (input.draft env w phoneE164) sendTo w.now) none
  | inserted {row sendTo now} : hasKey (·.id) row.id v.db.phoneBindings = false →
      BindStep env v w input (.insert row sendTo now)
        (.done (.ok ⟨{ row with createdAt := now }.toPublic, sendTo,
          bindPrefix ++ text " " ++ row.nonce⟩))
        (some (.insertBinding { row with createdAt := w.dbNow }))

theorem startBinding_step {env : Env} {v : View} {w : World} {input : StartBindingInput}
    {phase phase' : StartBindingPhase} {x : Option Write}
    (h : startBinding env v w input phase = some (phase', x)) :
    BindStep env v w input phase phase' x := by
  cases phase with
  | selectReceiver phoneE164 =>
    simp only [startBinding] at h
    split at h
    · next absent =>
      obtain ⟨rfl, rfl⟩ := Option.some.inj h
      refine .unknown fun r hr => ?_
      simpa only [decide_eq_true_eq] using List.find?_eq_none.mp absent r hr
    · next r found =>
      have hit := List.find?_some found
      simp only [decide_eq_true_eq] at hit
      have hr := List.mem_of_find?_eq_some found
      split at h
      · next off =>
        obtain ⟨rfl, rfl⟩ := Option.some.inj h
        exact .disabled hr hit.1 hit.2 (by simpa using off)
      · next on =>
        obtain ⟨rfl, rfl⟩ := Option.some.inj h
        exact .selected hr hit.1 hit.2 (by simpa using on)
  | selectVerified phoneE164 sendTo =>
    simp only [startBinding] at h
    split at h
    · next found =>
      obtain ⟨rfl, rfl⟩ := Option.some.inj h
      obtain ⟨b, hb, hit⟩ := List.any_eq_true.mp found
      simp only [decide_eq_true_eq] at hit
      exact .bound hb hit.1 hit.2.1 hit.2.2
    · next absent =>
      obtain ⟨rfl, rfl⟩ := Option.some.inj h
      exact .drafted fun b hb hit =>
        absent (List.any_eq_true.mpr ⟨b, hb, decide_eq_true hit⟩)
  | insert row sendTo now =>
    obtain ⟨absent, h⟩ := Option.ite_none_left_eq_some.mp h
    obtain ⟨rfl, rfl⟩ := Option.some.inj h
    exact .inserted (Bool.eq_false_iff.mpr absent)
  | done result => cases h
  | failed => cases h

/-- One statement of a cancel: the stage before, the stage after, what it writes and the expiry it
starts. -/
inductive CancelStep (v : View) (w : World) (appId id : Id) :
    CancelPhase → CancelPhase → Option Write → Option Id → Prop
  | missed : (∀ x ∈ v.db.verifications, ¬(x.id = id ∧ x.appId = appId ∧ x.status = .pending)) →
      CancelStep v w appId id .update .explain none none
  | taken {x} : x ∈ v.db.verifications → x.id = id → x.appId = appId → x.status = .pending →
      v.held (.verification x.id) = false →
      CancelStep v w appId id .update
        (.emit { x with status := .cancelled, cancelledAt := some w.now } .insertEvent) none none
  | unknown : (∀ x ∈ v.db.verifications, ¬(x.id = id ∧ x.appId = appId)) →
      CancelStep v w appId id .explain (.done (.error (notFound "verification"))) none none
  | settled {x} : x ∈ v.db.verifications → x.id = id → x.appId = appId →
      CancelStep v w appId id .explain
        (.done (.error (conflict "not_pending" "verification is not pending"))) none none
  | emitted {row emission emission'} : emission.write? row .cancelled none = none →
      emitVerificationEventInTx v w .cancelled row.appId emission = some emission' →
      CancelStep v w appId id (.emit row emission) (.emit row emission') none none
  | committed {row emission write} : emission.write? row .cancelled none = some write →
      CancelStep v w appId id (.emit row emission) .reread (some write) none
  | selected :
      CancelStep v w appId id .reread (.tell (Read.select v.db (.getVerification appId id)))
        none none
  | told {selected result} :
      Read.tell w.now selected (.getVerification appId id) = .verification result →
      CancelStep v w appId id (.tell selected) (.done result) none (due w.now selected)

theorem cancelVerification_step {v : View} {w : World} {appId id : Id}
    {phase phase' : CancelPhase} {x : Option Write} {expiry : Option Id}
    (h : cancelVerification v w appId id phase = some (phase', x, expiry)) :
    CancelStep v w appId id phase phase' x expiry := by
  cases phase with
  | update =>
    simp only [cancelVerification] at h
    split at h
    · next absent =>
      obtain ⟨rfl, rfl, rfl⟩ := Option.some.inj h
      refine .missed fun x hx => ?_
      simpa only [decide_eq_true_eq] using List.find?_eq_none.mp absent x hx
    · next x found =>
      obtain ⟨free, h⟩ := Option.ite_none_left_eq_some.mp h
      obtain ⟨rfl, rfl, rfl⟩ := Option.some.inj h
      have hit := List.find?_some found
      simp only [decide_eq_true_eq] at hit
      exact .taken (List.mem_of_find?_eq_some found) hit.1 hit.2.1 hit.2.2
        (Bool.eq_false_iff.mpr free)
  | explain =>
    simp only [cancelVerification] at h
    split at h
    · next absent =>
      obtain ⟨rfl, rfl, rfl⟩ := Option.some.inj h
      refine .unknown fun x hx => ?_
      simpa only [decide_eq_true_eq] using List.find?_eq_none.mp absent x hx
    · next x found =>
      obtain ⟨rfl, rfl, rfl⟩ := Option.some.inj h
      have hit := List.find?_some found
      simp only [decide_eq_true_eq] at hit
      exact .settled (List.mem_of_find?_eq_some found) hit.1 hit.2
  | emit row emission =>
    simp only [cancelVerification] at h
    split at h
    · next written =>
      obtain ⟨rfl, rfl, rfl⟩ := Option.some.inj h
      exact .committed written
    · next unwritten =>
      obtain ⟨e, next, same⟩ := Option.map_eq_some_iff.mp h
      obtain ⟨rfl, rfl, rfl⟩ := same
      exact .emitted unwritten next
  | reread =>
    obtain ⟨rfl, rfl, rfl⟩ := Option.some.inj h
    exact .selected
  | tell selected =>
    obtain ⟨rfl, rfl, rfl⟩ := Option.some.inj h
    exact .told rfl
  | done result => cases h
  | failed => cases h

/-- One statement of an expiry: the stage before, the stage after and what it writes. -/
inductive ExpireStep (v : View) (w : World) (id : Id) :
    ExpirePhase → ExpirePhase → Option Write → Prop
  | missed : (∀ x ∈ v.db.verifications, ¬(x.id = id ∧ x.status = .pending)) →
      ExpireStep v w id .update .done none
  | taken {x} : x ∈ v.db.verifications → x.id = id → x.status = .pending →
      v.held (.verification x.id) = false →
      ExpireStep v w id .update (.emit { x with status := .expired } .insertEvent) none
  | emitted {row emission emission'} : emission.write? row .expired none = none →
      emitVerificationEventInTx v w .expired row.appId emission = some emission' →
      ExpireStep v w id (.emit row emission) (.emit row emission') none
  | committed {row emission write} : emission.write? row .expired none = some write →
      ExpireStep v w id (.emit row emission) .done (some write)

theorem lazyExpireAndEmit_step {v : View} {w : World} {id : Id} {phase phase' : ExpirePhase}
    {x : Option Write} (h : lazyExpireAndEmit v w id phase = some (phase', x)) :
    ExpireStep v w id phase phase' x := by
  cases phase with
  | update =>
    simp only [lazyExpireAndEmit] at h
    split at h
    · next absent =>
      obtain ⟨rfl, rfl⟩ := Option.some.inj h
      refine .missed fun x hx => ?_
      simpa only [decide_eq_true_eq] using List.find?_eq_none.mp absent x hx
    · next x found =>
      obtain ⟨free, h⟩ := Option.ite_none_left_eq_some.mp h
      obtain ⟨rfl, rfl⟩ := Option.some.inj h
      have hit := List.find?_some found
      simp only [decide_eq_true_eq] at hit
      exact .taken (List.mem_of_find?_eq_some found) hit.1 hit.2 (Bool.eq_false_iff.mpr free)
  | emit row emission =>
    simp only [lazyExpireAndEmit] at h
    split at h
    · next written =>
      obtain ⟨rfl, rfl⟩ := Option.some.inj h
      exact .committed written
    · next unwritten =>
      obtain ⟨e, next, same⟩ := Option.map_eq_some_iff.mp h
      obtain ⟨rfl, rfl⟩ := same
      exact .emitted unwritten next
  | done => cases h
  | failed => cases h

end Syrotp
