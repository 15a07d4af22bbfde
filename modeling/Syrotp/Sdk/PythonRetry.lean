import Mathlib.Algebra.Order.Field.Rat
import Mathlib.Tactic.NormNum
import Syrotp.Misc.Double
import Syrotp.Sdk.Python

/-!
# The retry loops of the Python SDK

`execute_with_retries` of `_http.py` and `aexecute_with_retries` of `_async_http.py`, each as it is
written, with their calls and sleeps: the first is a loop that blocks, the second a coroutine that
is suspended at every `await`. A time in seconds is the value of its float.
-/

namespace Syrotp.Sdk

/-! ## Backoff -/

def backoffBaseSeconds : List ℚ := [0, 1 / 4, 1 / 2, 1, 2, 4]

def backoffCapSeconds : ℚ := 4

def backoffJitterFraction : ℚ := 2 / 5

/-- `_backoff_for`, with what `random.uniform` gives for its bounds. -/
def backoffFor (uniform : ℚ → ℚ → ℚ) (attempt : Nat) : ℚ :=
  let base := backoffBaseSeconds.getD (min attempt (backoffBaseSeconds.length - 1)) 0
  if base = 0 then 0
  else
    let delta := base * backoffJitterFraction
    min backoffCapSeconds (max 0 (uniform (base - delta) (base + delta)))

/-! ## One execution -/

/-- What `transport()` returns or raises. An `exception` is none of `HTTPError`: `InvalidURL` for an
address that `httpx` refuses, or an error of Python that the building of a request ends in. -/
inductive Arrival (ρ : Type*) where
  | response (res : ρ)
  | timeoutException (message : String)
  | httpError (message : String)
  | exception (name : String)
  deriving DecidableEq, Repr

/-- What is raised: an error of the client, one of Python's own, or what the loop lets through. -/
inductive PyError where
  | syrotp (e : SyrotpError)
  | exception (name : String)
  | valueError
  | overflowError
  | recursionError
  | keyError (key : Text)
  deriving DecidableEq, Repr

/-- What an execution is given. `transport k` is what its call number `k` returns or raises, and
`jitter k` is `random.uniform` after that call. -/
structure Exchange (ρ α : Type*) where
  maxRetries : ℤ
  transport : Nat → Arrival ρ
  onResponse : ρ → Except PyError α
  jitter : Nat → ℚ → ℚ → ℚ

/-- What an execution does to the world. -/
inductive Effect where
  | call (attempt : Nat)
  | sleep (seconds : ℚ)
  deriving DecidableEq, Repr

inductive Ending (α : Type*) where
  | returned (value : α)
  | raised (e : PyError)
  deriving DecidableEq, Repr

/-- The longest wait that `time.sleep` takes. `asyncio.sleep` takes any. -/
structure Sleeper where
  longest : ℚ
  cap_le : backoffCapSeconds ≤ longest

/-- Nanoseconds in 64 bits. -/
def nanosecondClock : Sleeper := ⟨(2 ^ 63 - 1) / 10 ^ 9, by norm_num [backoffCapSeconds]⟩

variable {ρ α : Type*} (x : Exchange ρ α)

/-- The wait before the next attempt: the backoff, or `float(oe.retry_after_seconds)` if that is
longer; none when it is out of the range of a float. -/
def Exchange.delay (attempt : Nat) (oe : SyrotpError) : Option ℚ :=
  match oe.errorClass with
  | .rateLimit (some retryAfterSeconds) =>
    (toDouble retryAfterSeconds).map fun f =>
      max (backoffFor (x.jitter attempt) (attempt + 1)) (f : ℚ)
  | _ => some (backoffFor (x.jitter attempt) (attempt + 1))

/-! ## `execute_with_retries` -/

/-- `time.sleep(seconds)`, and then what comes after it. -/
def sleepThen (p : Sleeper) (seconds : ℚ) (rest : List Effect × Ending α) :
    List Effect × Ending α :=
  if seconds ≤ p.longest then (.sleep seconds :: rest.1, rest.2) else ([], .raised .overflowError)

/-- The loop from `attempt` on, with the number of retries left. -/
def Exchange.executeFrom (p : Sleeper) : Nat → Nat → List Effect × Ending α
  | left, attempt =>
    let rest : List Effect × Ending α :=
      match x.transport attempt, left with
      | .timeoutException message, _ =>
        ([], .raised (.syrotp
          ⟨.timeout, "timeout", orDefault message "request timed out", 0, none⟩))
      | .httpError message, 0 =>
        ([], .raised (.syrotp
          ⟨.network, "network_error", orDefault message "network error", 0, none⟩))
      | .httpError _, left + 1 =>
        sleepThen p (backoffFor (x.jitter attempt) (attempt + 1))
          (executeFrom p left (attempt + 1))
      | .exception name, _ => ([], .raised (.exception name))
      | .response res, left =>
        match x.onResponse res, left with
        | .ok value, _ => ([], .returned value)
        | .error (.syrotp oe), left + 1 =>
          if isRetriable oe then
            match x.delay attempt oe with
            | none => ([], .raised .overflowError)
            | some seconds => sleepThen p seconds (executeFrom p left (attempt + 1))
          else ([], .raised (.syrotp oe))
        | .error e, _ => ([], .raised e)
    (.call attempt :: rest.1, rest.2)

/-- `execute_with_retries`. -/
def Exchange.execute (p : Sleeper) : List Effect × Ending α :=
  if x.maxRetries < 0 then ([], .raised .valueError) else x.executeFrom p x.maxRetries.toNat 0

/-! ## `aexecute_with_retries` -/

/-- Where the coroutine is suspended; `lastError` is its variable. -/
inductive Suspension (α : Type*) where
  | transport (attempt : Nat)
  | sleep (attempt : Nat) (lastError : SyrotpError)
  | ended (ending : Ending α)
  deriving DecidableEq, Repr

/-- The head of the loop. -/
def Exchange.iterate (attempt : Nat) (lastError : SyrotpError) : List Effect × Suspension α :=
  if (attempt : ℤ) < x.maxRetries + 1 then ([.call attempt], .transport attempt)
  else ([], .ended (.raised (.syrotp lastError)))

/-- `await asyncio.sleep(seconds)`. -/
def suspend (attempt : Nat) (lastError : SyrotpError) (seconds : ℚ) :
    List Effect × Suspension α :=
  ([.sleep seconds], .sleep attempt lastError)

/-- What the coroutine does when the future it awaits is done, up to the next `await`. -/
def Exchange.resume : Suspension α → List Effect × Suspension α
  | .transport attempt =>
    match x.transport attempt with
    | .timeoutException message =>
      ([], .ended (.raised (.syrotp
        ⟨.timeout, "timeout", orDefault message "request timed out", 0, none⟩)))
    | .httpError message =>
      let lastError : SyrotpError :=
        ⟨.network, "network_error", orDefault message "network error", 0, none⟩
      if (attempt : ℤ) < x.maxRetries then
        suspend attempt lastError (backoffFor (x.jitter attempt) (attempt + 1))
      else ([], .ended (.raised (.syrotp lastError)))
    | .exception name => ([], .ended (.raised (.exception name)))
    | .response res =>
      match x.onResponse res with
      | .ok value => ([], .ended (.returned value))
      | .error (.syrotp oe) =>
        if (attempt : ℤ) < x.maxRetries ∧ isRetriable oe then
          match x.delay attempt oe with
          | none => ([], .ended (.raised .overflowError))
          | some seconds => suspend attempt oe seconds
        else ([], .ended (.raised (.syrotp oe)))
      | .error e => ([], .ended (.raised e))
  | .sleep attempt lastError => x.iterate (attempt + 1) lastError
  | .ended ending => ([], .ended ending)

/-- The coroutine up to its first `await`. Nothing reads the `None` that `last_error` is first. -/
def Exchange.start : List Effect × Suspension α :=
  if x.maxRetries < 0 then ([], .ended (.raised .valueError))
  else x.iterate 0 ⟨.base, "", "", 0, none⟩

/-- What a coroutine does when it is resumed until it ends. -/
inductive Exchange.Awaited : Suspension α → List Effect → Ending α → Prop
  | ended {ending} : Awaited (.ended ending) [] ending
  | resumed {c log ending} (open' : ∀ ending, c ≠ .ended ending)
      (rest : Awaited (x.resume c).2 log ending) : Awaited c ((x.resume c).1 ++ log) ending

/-- The effects and the ending of `aexecute_with_retries`. -/
def Exchange.Aexecute (log : List Effect) (ending : Ending α) : Prop :=
  ∃ rest, x.Awaited x.start.2 rest ending ∧ log = x.start.1 ++ rest

end Syrotp.Sdk
