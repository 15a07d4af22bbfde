import Mathlib.Data.PNat.Basic
import Syrotp.Server.Schema

/-!
# Waiting for a verification

`waitForVerification` of the JavaScript SDK and `wait_for_verification` of the Python SDK, each with
the instants of its polls, in milliseconds since it was called. A poll takes no time, and a sleep
takes as long as the timer makes of it.
-/

namespace Syrotp.Sdk

/-- How a wait ends. -/
inductive Waited where
  | status (s : VerificationStatus)
  | timedOut
  deriving DecidableEq, Repr

/-- The status that a poll sees at each instant. -/
abbrev Timeline := Nat → VerificationStatus

/-- A terminal status is never left. -/
def Timeline.Final (timeline : Timeline) : Prop :=
  ∀ t u, t ≤ u → timeline t ≠ .pending → timeline u = timeline t

/-- The smallest interval of both. -/
def minIntervalMs : ℤ := 2000

/-- `interval`, at least `minIntervalMs`. -/
def flooredInterval (intervalMs : ℤ) : ℕ+ :=
  ⟨(max minIntervalMs intervalMs).toNat, by unfold minIntervalMs; omega⟩

/-! ## JavaScript -/

/-- What `setTimeout` makes of a delay in Node: one that does not fit in 31 bits is one of 1. -/
def nodeTimer (ms : ℕ+) : ℕ+ := if 2147483647 < (ms : Nat) then 1 else ms

/-- The loop of `waitForVerification` at `now`, which sleeps so long after each poll. -/
def jsLoop (timeline : Timeline) (slept : ℕ+) (deadline now : Nat) : List Nat × Waited :=
  if now < deadline then
    if timeline now ≠ .pending then ([now], .status (timeline now))
    else
      let rest := jsLoop timeline slept deadline (now + slept)
      (now :: rest.1, rest.2)
  else ([], .timedOut)
termination_by deadline - now
decreasing_by have := slept.pos; omega

/-! ## Python -/

/-- The loop of `wait_for_verification` at `now`. -/
def pyLoop (timeline : Timeline) (interval : ℕ+) (deadline now : Nat) : List Nat × Waited :=
  if timeline now ≠ .pending then ([now], .status (timeline now))
  else if deadline ≤ now then ([now], .timedOut)
  else
    let rest := pyLoop timeline interval deadline (now + min (interval : Nat) (deadline - now))
    (now :: rest.1, rest.2)
termination_by deadline - now
decreasing_by have := interval.pos; omega

/-! ## Both -/

/-- A call of both at once, with a positive timeout. The timer of JavaScript sleeps exactly as long
as it is told, or no terminal status is ever left. -/
structure Wait where
  timeline : Timeline
  intervalMs : ℤ
  timeoutMs : ℕ+
  timer : ℕ+ → ℕ+
  steady : timer (flooredInterval intervalMs) = flooredInterval intervalMs ∨ timeline.Final

/-- `waitForVerification`. -/
def Wait.js (w : Wait) : List Nat × Waited :=
  jsLoop w.timeline (w.timer (flooredInterval w.intervalMs)) w.timeoutMs 0

/-- `wait_for_verification`. -/
def Wait.py (w : Wait) : List Nat × Waited :=
  pyLoop w.timeline (flooredInterval w.intervalMs) w.timeoutMs 0

end Syrotp.Sdk
