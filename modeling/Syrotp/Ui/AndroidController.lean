import Syrotp.Ui.Verification
import Syrotp.Misc.Reporting

/-!
# The controller of the Android screen

`VerificationController.kt`. A coroutine runs on the thread of its parent scope until it suspends,
so a step is a method called from outside or a coroutine that resumes. `start` makes a scope with
two coroutines, the countdown and the polling; `stop` cancels them, and a cancelled coroutine ends
where it is suspended.
-/

namespace Syrotp.Ui.Android

/-- Where the polling coroutine is suspended. -/
inductive PollPhase where
  | launched
  | delayed
  | requesting
  deriving DecidableEq, Repr

inductive Work where
  | countdown
  | polling (phase : PollPhase)
  | over
  deriving DecidableEq, Repr

/-- A coroutine and the scope it was launched in. -/
structure Coroutine where
  scope : Nat
  work : Work
  deriving DecidableEq, Repr

structure Controller where
  verification : Verification
  secondsLeft : Nat
  scope : Option Nat
  /-- How many scopes there have been. -/
  scopes : Nat
  coroutines : List Coroutine
  deriving DecidableEq, Repr

/-- A method's effect and what the host sees of it. -/
abbrev Outcome := Controller × List (Report Nat)

/-- `parse` is `Instant.parse(…).toEpochMilli()`, `none` where it throws. -/
def secondsLeftFrom (parse : Text → Option Int) (expiresAt : Text) (nowMs : Int) : Nat :=
  match parse expiresAt with
  | none => 0
  | some expiresMs => ((expiresMs - nowMs).tdiv 1000).toNat

namespace Controller

/-- The constructor. -/
def new (parse : Text → Option Int) (initial : Verification) (nowMs : Int) : Controller where
  verification := initial
  secondsLeft := secondsLeftFrom parse initial.expiresAt nowMs
  scope := none
  scopes := 0
  coroutines := []

def start (c : Controller) : Controller :=
  match c.scope with
  | some _ => c
  | none =>
    let s := c.scopes
    let c := { c with scope := some s, scopes := s + 1 }
    if c.verification.status.isTerminal then c
    else { c with coroutines := c.coroutines ++ [⟨s, .countdown⟩, ⟨s, .polling .launched⟩] }

def stop (c : Controller) : Controller := { c with scope := none }

def scopeActive (c : Controller) : Bool := c.scope.isSome

variable (parse : Text → Option Int)

def transition (c : Controller) (next : Verification) (nowMs : Int) : Outcome :=
  let prev := c.verification.status
  let secondsLeft := secondsLeftFrom parse next.expiresAt nowMs
  ({ c with verification := next, secondsLeft := secondsLeft },
    .change next secondsLeft :: transitionCallback prev next)

/-- `runCountdown` from the head of its loop to its next suspension. -/
def runCountdown (c : Controller) (nowMs : Int) : Work × Outcome :=
  if !c.scopeActive then (.over, c, [])
  else
    let v := c.verification
    if v.status.isTerminal then (.over, c, [])
    else
      let secs := secondsLeftFrom parse v.expiresAt nowMs
      if secs = 0 then (.over, c.transition parse v.ranOut nowMs)
      else if secs ≠ c.secondsLeft then
        (.countdown, { c with secondsLeft := secs }, [.change v secs])
      else (.countdown, c, [])

/-- `pollOnce` after the response. -/
def received (c : Controller) (parsed : StatusResponse) (nowMs : Int) : Outcome :=
  let current := c.verification
  if parsed.status = current.status then
    if parsed.expiresAt ≠ current.expiresAt then
      let updated := { current with expiresAt := parsed.expiresAt }
      let secondsLeft := secondsLeftFrom parse updated.expiresAt nowMs
      ({ c with verification := updated, secondsLeft := secondsLeft },
        [.change updated secondsLeft])
    else (c, [])
  else c.transition parse (current.answered parsed) nowMs

/-- The head of the loop of `runPolling`. -/
def again (c : Controller) : Work := if c.scopeActive then .polling .delayed else .over

/-- `runPolling` up to its next suspension. -/
def runPolling (c : Controller) : PollPhase → Work
  | .launched => if c.verification.status.isTerminal then c.again else .polling .requesting
  | .delayed => if c.verification.status.isTerminal then .over else .polling .requesting
  | .requesting => .polling .requesting

end Controller

/-- What happens next. -/
inductive Event where
  | start
  | stop
  /-- A coroutine is run that is launched or whose delay is over. -/
  | resume (i : Nat) (nowMs : Int)
  /-- The request of a polling coroutine is over; what throws on the way is caught. -/
  | answered (i : Nat) (result : Except Failure StatusResponse) (nowMs : Int)

/-- A coroutine goes on to its next suspension. -/
def Controller.advance (c : Controller) (i : Nat) (scope : Nat) (work : Work) : Controller :=
  { c with coroutines := c.coroutines.set i ⟨scope, work⟩ }

def step (parse : Text → Option Int) (c : Controller) : Event → Option Outcome
  | .start => some (c.start, [])
  | .stop => some (c.stop, [])
  | .resume i nowMs =>
    match c.coroutines[i]? with
    | none => none
    | some ⟨scope, work⟩ =>
      -- a cancelled coroutine does not go on
      if c.scope ≠ some scope then some (c.advance i scope .over, [])
      else
        match work with
        | .over => none
        | .polling .requesting => none
        | .countdown =>
          let (work, c, told) := c.runCountdown parse nowMs
          some (c.advance i scope work, told)
        | .polling phase => some (c.advance i scope (c.runPolling phase), [])
  | .answered i result nowMs =>
    match c.coroutines[i]? with
    | none => none
    | some ⟨scope, work⟩ =>
      if work ≠ .polling .requesting then none
      else if c.scope ≠ some scope then some (c.advance i scope .over, [])
      else
        match result with
        | .error e => some (c.advance i scope c.again, [.onError e])
        | .ok parsed =>
          let (c, told) := c.received parse parsed nowMs
          some (c.advance i scope c.again, told)

end Syrotp.Ui.Android
