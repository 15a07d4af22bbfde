import Syrotp.Server.Proofs.InboundStep

/-!
# The statements of a start

`StartStep` says once what a statement of `startVerification` can do: where it leads, what it
writes, and what it found. Everything else about starts is proved by cases on it.
-/

namespace Syrotp

/-- The pending rows of a phone in an app, as `startVerification` counts them. -/
def phonePending (db : Db) (appId : Id) (phoneE164 : Text) : Nat :=
  db.verifications.countP fun x =>
    x.appId = appId ∧ x.phoneE164 = phoneE164 ∧ x.status = .pending

def tooManyPending : ApiError :=
  conflict "too_many_pending" "too many pending verifications for this phone"

/-- One statement of a start: the stage before, the stage after and what it writes. -/
inductive StartStep (env : Env) (v : View) (w : World) (input : StartVerificationInput) :
    StartPhase → StartPhase → Option Write → Prop
  | bound : isBound v.db input.appId input.phoneE164 = true →
      StartStep env v w input .checkBinding
        (.lockPhone ⟨newId .verification (w.ulid 0), w.now⟩ 0) none
  | unbound : isBound v.db input.appId input.phoneE164 = false →
      StartStep env v w input .checkBinding (.done (.error phoneNotBound)) none
  | locked {draft number} : v.held (.advisory input.appId input.phoneE164) = false →
      StartStep env v w input (.lockPhone draft number)
        (.countPending ⟨draft, number,
          generateCode env.config.verificationCodeLength w.random, w.dbNow⟩) none
  | tooMany {a} :
      env.config.maxPendingPerPhone ≤ phonePending v.db input.appId input.phoneE164 →
      StartStep env v w input (.countPending a) (.done (.error tooManyPending)) none
  | preferring {a operator} :
      phonePending v.db input.appId input.phoneE164 < env.config.maxPendingPerPhone →
      StartStep env v w input (.countPending a) (.pickPreferred a operator) none
  | counted {a} :
      phonePending v.db input.appId input.phoneE164 < env.config.maxPendingPerPhone →
      StartStep env v w input (.countPending a) (.pickAny a) none
  | preferred {a operator r} :
      runHealthyReceiverQuery env v.db input.appId (some operator) a.dbNow w.tie = some r →
      StartStep env v w input (.pickPreferred a operator) (.insert a (r.picked .preferred)) none
  | fallback {a operator} :
      runHealthyReceiverQuery env v.db input.appId (some operator) a.dbNow w.tie = none →
      StartStep env v w input (.pickPreferred a operator) (.pickAny a) none
  | picked {a r m} : runHealthyReceiverQuery env v.db input.appId none a.dbNow w.tie = some r →
      StartStep env v w input (.pickAny a) (.insert a (r.picked m)) none
  | noReceiver {a} : runHealthyReceiverQuery env v.db input.appId none a.dbNow w.tie = none →
      StartStep env v w input (.pickAny a)
        (.done (.error (serviceUnavailable "no_receiver" "no healthy receiver available"))) none
  | inserted {a receiver} : v.held (.key a.draft.id) = false →
      v.held (.pendingKey receiver.id input.phoneE164 a.code) = false →
      hasKey (·.id) a.draft.id v.db.verifications = false →
      (∀ x ∈ v.db.verifications, pendingWith receiver.id input.phoneE164 a.code x = false) →
      StartStep env v w input (.insert a receiver) (.commit receiver (a.row env input receiver))
        none
  | collided {a receiver} :
      StartStep env v w input (.insert a receiver) (afterCollision a) none
  | committed {receiver row result} :
      StartStep env v w input (.commit receiver row) (.done (.ok result))
        (some (.insertVerification row))

theorem startVerification_step {env : Env} {v : View} {w : World} {input : StartVerificationInput}
    {phase phase' : StartPhase} {x : Option Write}
    (h : startVerification env v w input phase = some (phase', x)) :
    StartStep env v w input phase phase' x := by
  cases phase with
  | checkBinding =>
    simp only [startVerification] at h
    split at h
    · next found =>
      obtain ⟨rfl, rfl⟩ := Option.some.inj h
      exact .bound found
    · next missing =>
      obtain ⟨rfl, rfl⟩ := Option.some.inj h
      exact .unbound (Bool.eq_false_iff.mpr missing)
  | lockPhone draft number =>
    simp only [startVerification, Option.ite_none_left_eq_some] at h
    obtain ⟨free, h⟩ := h
    obtain ⟨rfl, rfl⟩ := Option.some.inj h
    exact .locked (Bool.eq_false_iff.mpr free)
  | countPending a =>
    simp only [startVerification] at h
    split at h
    · next full =>
      obtain ⟨rfl, rfl⟩ := Option.some.inj h
      exact .tooMany full
    · next below =>
      have below := Nat.lt_of_not_le below
      split at h
      · obtain ⟨rfl, rfl⟩ := Option.some.inj h
        exact .counted below
      · split at h
        · obtain ⟨rfl, rfl⟩ := Option.some.inj h
          exact .counted below
        · obtain ⟨rfl, rfl⟩ := Option.some.inj h
          exact .preferring below
  | pickPreferred a operator =>
    simp only [startVerification] at h
    split at h
    · next found =>
      obtain ⟨rfl, rfl⟩ := Option.some.inj h
      exact .preferred found
    · next missing =>
      obtain ⟨rfl, rfl⟩ := Option.some.inj h
      exact .fallback missing
  | pickAny a =>
    simp only [startVerification] at h
    split at h
    · next missing =>
      obtain ⟨rfl, rfl⟩ := Option.some.inj h
      exact .noReceiver missing
    · next found =>
      obtain ⟨rfl, rfl⟩ := Option.some.inj h
      exact .picked found
  | insert a receiver =>
    simp only [startVerification, Option.ite_none_left_eq_some, not_or, Bool.not_eq_true] at h
    obtain ⟨free, absent, h⟩ := h
    split at h
    · next unused =>
      obtain ⟨rfl, rfl⟩ := Option.some.inj h
      refine .inserted free.1 free.2 absent fun y hy => ?_
      exact Bool.eq_false_iff.mpr (List.find?_eq_none.mp unused y hy)
    · simp only [Option.ite_none_left_eq_some] at h
      obtain ⟨rfl, rfl⟩ := Option.some.inj h.2
      exact .collided
  | commit receiver row =>
    obtain ⟨rfl, rfl⟩ := Option.some.inj h
    exact .committed
  | done result => exact nomatch h
  | failed => exact nomatch h

end Syrotp
