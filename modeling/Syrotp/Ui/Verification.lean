import Syrotp.Misc.JsText

/-!
# What the verification widgets show

The record that a backend hands to its frontend, `types.ts` of the web component and
`Verification.kt` of the Android screen, the answer of `/v/:id/status`, and what a controller tells
its host.
-/

namespace Syrotp.Ui

inductive VerificationStatus where
  | pending
  | verified
  | expired
  | cancelled
  | failed
  deriving DecidableEq, Repr

/-- `isTerminal`. -/
def VerificationStatus.isTerminal (s : VerificationStatus) : Bool := s ≠ .pending

structure Verification where
  id : Text
  status : VerificationStatus
  sendTo : Option Text
  message : Option Text
  phoneMasked : Text
  expiresAt : Text
  verifiedAt : Option Text
  deriving DecidableEq, Repr

structure StatusResponse where
  status : VerificationStatus
  expiresAt : Text
  verifiedAt : Option Text
  deriving DecidableEq, Repr

/-- An exception, as the host is told of it. -/
structure Failure where
  name : Text
  message : Text
  deriving DecidableEq, Repr

/-- What a controller tells its host: the visible state, and the callbacks. -/
inductive Report (τ : Type) where
  | change (v : Verification) (secondsLeft : τ)
  | onVerified (v : Verification)
  | onExpired (v : Verification)
  | onCancelled (v : Verification)
  | onError (e : Failure)
  deriving DecidableEq, Repr

/-- The status in a report of the visible state. -/
def Report.shows {τ : Type} : Report τ → Option VerificationStatus
  | .change v _ => some v.status
  | _ => none

/-- The status whose callback it is. -/
def Report.announces {τ : Type} : Report τ → Option VerificationStatus
  | .onVerified _ => some .verified
  | .onExpired _ => some .expired
  | .onCancelled _ => some .cancelled
  | _ => none

/-- The callback of a transition out of `pending`; there is none for `failed`. -/
def transitionCallback {τ : Type} (prev : VerificationStatus) (next : Verification) :
    List (Report τ) :=
  if prev ≠ next.status ∧ prev = .pending then
    match next.status with
    | .verified => [.onVerified next]
    | .expired => [.onExpired next]
    | .cancelled => [.onCancelled next]
    | _ => []
  else []

/-- The state after a response with another status: an SMS is shown only while it is awaited. -/
def Verification.answered (v : Verification) (body : StatusResponse) : Verification :=
  { v with
    status := body.status
    expiresAt := body.expiresAt
    verifiedAt := body.verifiedAt
    sendTo := if body.status = .pending then v.sendTo else none
    message := if body.status = .pending then v.message else none }

/-- The state when the time has run out on the device. -/
def Verification.ranOut (v : Verification) : Verification :=
  { v with status := .expired, sendTo := none, message := none }

/-- A status other than 2xx. -/
def pollFailed (name : Text) (status : Nat) : Failure :=
  ⟨name, text "status poll failed: HTTP " ++ Text.ofInt status⟩

end Syrotp.Ui
