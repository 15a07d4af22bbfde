import Syrotp.Sdk.Python
import Syrotp.Misc.Pool

/-!
# One client, many calls

`client.py` and `async_client.py` keep the retry setting in `self._retries`. Each request reads it
once, and `cancel_verification` writes it before its own request and writes back what it had read
when the request is over, in a `finally`. The pool's store is the setting. What a request does
between its budget and its end does not touch it.
-/

namespace Syrotp.Sdk

/-- Where another call may run: between any two lines under threads, at an `await` under asyncio. -/
inductive Interleaving where
  | threads
  | tasks
  deriving DecidableEq, Repr

/-- How a call ends; a task may be cancelled at its `await`. -/
inductive Outcome where
  | returned
  | raised
  | cancelled
  deriving DecidableEq, Repr

/-- How far a `cancel_verification` has come, with its `original` and the budget of its request. -/
inductive CancelStage where
  | entered
  | read (original : Nat)
  | overridden (original : Nat)
  | requested (original budget : Nat)
  | ended (outcome : Outcome)
  deriving DecidableEq, Repr

inductive Method where
  | startVerification
  | getVerification
  | waitForVerification
  deriving DecidableEq, Repr

/-- A call on the client; one that does not cancel keeps the budgets its requests ran with. -/
inductive ClientCall where
  | cancel (stage : CancelStage)
  | other (method : Method) (budgets : List Nat)
  deriving DecidableEq, Repr

inductive ClientRequest where
  | cancelVerification (verificationId : Text)
  | other (method : Method)

inductive ClientMove where
  | run
  | finish (outcome : Outcome)

/-- The next line of `cancel_verification` up to its request, with the setting it leaves. -/
def line (retries : Nat) : CancelStage → Option (Nat × CancelStage)
  | .entered => some (retries, .read retries)
  | .read original => some (min original 1, .overridden original)
  | .overridden original => some (retries, .requested original retries)
  | .requested _ _ | .ended _ => none

/-- What `cancel_verification` does before another call may run. -/
def uninterrupted (retries : Nat) (stage : CancelStage) : Interleaving → Option (Nat × CancelStage)
  | .threads => line retries stage
  | .tasks => (line retries stage).bind fun r => (line r.1 r.2).bind fun r => line r.1 r.2

/-- Only `wait_for_verification` makes more than one request. -/
def Method.mayRequest (method : Method) (budgets : List Nat) : Bool :=
  match method with
  | .waitForVerification => true
  | .startVerification | .getVerification => budgets.isEmpty

/-- The calls of a client; a `verification_id` that does not match is refused at once. -/
def client (mode : Interleaving) : Program Nat ClientCall ClientRequest ClientMove where
  accept _ request :=
    match request with
    | .cancelVerification verificationId =>
      some (.cancel (if isVerificationId verificationId then .entered else .ended .raised))
    | .other method => some (.other method [])
  turn retries _ call move :=
    match call, move with
    | .cancel stage, .run =>
      (uninterrupted retries stage mode).map fun r => ⟨r.1, .cancel r.2, []⟩
    | .cancel (.requested original _), .finish outcome =>
      some ⟨original, .cancel (.ended outcome), []⟩
    | .other method budgets, .run =>
      if method.mayRequest budgets then some ⟨retries, .other method (budgets ++ [retries]), []⟩
      else none
    | _, _ => none

/-- A client as the constructor leaves it. -/
def constructed (retries : Nat) : Pool Nat ClientCall := ⟨retries, []⟩

end Syrotp.Sdk
