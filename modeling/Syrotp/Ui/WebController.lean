import Syrotp.Ui.Verification
import Syrotp.Misc.Reporting

/-!
# The controller of the web component

`VerificationController` of `packages/web-component/src/controller.ts`. Code runs until it awaits,
so a step is a method called from outside, a timer that fires, or a call of `poll` that goes on
after one of its two awaits. Polls may overlap, and go on in any order. The callbacks of the host
do not throw; a `stop` from inside one has the effect of a `stop` right after it.
-/

namespace Syrotp.Ui.Web

/-- Where a call of `poll` awaits. -/
inductive PollPhase where
  | fetching
  | reading
  | over
  deriving DecidableEq, Repr

structure Controller where
  state : Verification
  /-- `none` is `NaN`. -/
  secondsLeft : Option Nat
  prevStatus : VerificationStatus
  /-- Whether the interval is set. -/
  pollId : Bool
  tickId : Bool
  /-- The poll whose request `stop` aborts. -/
  inflight : Option Nat
  stopped : Bool
  started : Bool
  polls : List PollPhase
  deriving DecidableEq, Repr

/-- A method's effect and what the host is told. -/
abbrev Outcome := Controller × List (Report (Option Nat))

/-- `getTime` is `new Date(…).getTime()`, `none` for `NaN`. -/
def computeSecondsLeft (getTime : Text → Option Int) (expiresAt : Text) (now : Int) : Option Nat :=
  (getTime expiresAt).map fun t => ((t - now) / 1000).toNat

namespace Controller

/-- The constructor. -/
def new (getTime : Text → Option Int) (verification : Verification) (now : Int) : Controller where
  state := verification
  secondsLeft := computeSecondsLeft getTime verification.expiresAt now
  prevStatus := verification.status
  pollId := false
  tickId := false
  inflight := none
  stopped := false
  started := false
  polls := []

/-- `poll` up to the request. -/
def poll (c : Controller) : Controller :=
  if c.stopped then c
  else if c.state.status.isTerminal then c
  else { c with inflight := some c.polls.length, polls := c.polls ++ [.fetching] }

def start (c : Controller) : Outcome :=
  if c.started ∨ c.stopped then (c, [])
  else
    let c := { c with started := true }
    let told := [.change c.state c.secondsLeft]
    if c.state.status.isTerminal then (c, told)
    else ({ { c with tickId := true }.poll with pollId := true }, told)

def clearTimers (c : Controller) : Controller := { c with pollId := false, tickId := false }

def stop (c : Controller) : Controller := { c with stopped := true, inflight := none }.clearTimers

variable (getTime : Text → Option Int)

def transition (c : Controller) (next : Verification) (now : Int) : Outcome :=
  let prev := c.prevStatus
  let secondsLeft := computeSecondsLeft getTime next.expiresAt now
  let c := { c with state := next, prevStatus := next.status, secondsLeft := secondsLeft }
  (if next.status.isTerminal then c.clearTimers else c,
    .change next secondsLeft :: transitionCallback prev next)

def onCountdownTick (c : Controller) (now : Int) : Outcome :=
  if c.state.status ≠ .pending then (c, [])
  else
    let secondsLeft := computeSecondsLeft getTime c.state.expiresAt now
    let c := { c with secondsLeft := secondsLeft }
    -- a comparison with NaN is false
    if secondsLeft = some 0 then c.transition getTime c.state.ranOut now
    else (c, [.change c.state secondsLeft])

/-- `poll` after its response has been read. -/
def received (c : Controller) (body : StatusResponse) (now : Int) : Outcome :=
  if c.stopped then (c, [])
  else if body.status = c.state.status then
    if body.expiresAt ≠ c.state.expiresAt then
      let secondsLeft := computeSecondsLeft getTime body.expiresAt now
      let c := { c with
        state := { c.state with expiresAt := body.expiresAt }
        secondsLeft := secondsLeft }
      (c, [.change c.state secondsLeft])
    else (c, [])
  else c.transition getTime (c.state.answered body) now

/-- The `catch` of `poll`. -/
def caught (c : Controller) (e : Failure) : Outcome :=
  if c.stopped then (c, [])
  else if e.name = text "AbortError" then (c, [])
  else (c, [.onError e])

end Controller

/-- What happens next. The request of a poll that was aborted fails, like any other may. -/
inductive Event where
  | start
  | stop
  | tick (now : Int)
  | pollDue
  /-- The `fetch` of a poll settles, with the status of the response. -/
  | fetched (i : Nat) (result : Except Failure Nat)
  /-- The body of a response has been read. -/
  | read (i : Nat) (result : Except Failure StatusResponse) (now : Int)

/-- A poll goes on. -/
def Controller.advance (c : Controller) (i : Nat) (phase : PollPhase) : Controller :=
  { c with polls := c.polls.set i phase }

def step (getTime : Text → Option Int) (c : Controller) : Event → Option Outcome
  | .start => some c.start
  | .stop => some (c.stop, [])
  | .tick now => if c.tickId then some (c.onCountdownTick getTime now) else none
  | .pollDue => if c.pollId then some (c.poll, []) else none
  | .fetched i result =>
    if c.polls[i]? = some .fetching then
      match result with
      | .error e => some ((c.advance i .over).caught e)
      | .ok status =>
        if 200 ≤ status ∧ status < 300 then some (c.advance i .reading, [])
        else some ((c.advance i .over).caught (pollFailed (text "Error") status))
    else none
  | .read i result now =>
    if c.polls[i]? = some .reading then
      match result with
      | .error e => some ((c.advance i .over).caught e)
      | .ok body => some ((c.advance i .over).received getTime body now)
    else none

end Syrotp.Ui.Web
