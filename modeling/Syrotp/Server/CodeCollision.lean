import Syrotp.Server.System

/-!
# The retry on a code collision

`runWithCodeCollisionRetry` of `services/verifications.ts` for any attempt function, and what the
attempts of a start come to in a run of the server.
-/

namespace Syrotp

/-! ## The loop -/

/-- What a `catch` may get: a value that is no object, an `ApiError`, or any other object, with its
`code` and `constraint_name` where these are strings. -/
inductive Caught (ε : Type*) where
  | value (e : ε)
  | api (e : ApiError)
  | object (code constraintName : Option Text) (e : ε)
  deriving DecidableEq, Repr

namespace Caught

variable {ε : Type*}

def isObject : Caught ε → Bool
  | .value _ => false
  | .api _ | .object .. => true

def code : Caught ε → Option Text
  | .value _ => none
  | .api e => some (text e.code)
  | .object code _ _ => code

def constraintName : Caught ε → Option Text
  | .value _ | .api _ => none
  | .object _ constraintName _ => constraintName

end Caught

def uniqueViolation : Text := text "23505"

/-- The partial unique index on pending verifications. -/
def pendingUniq : Text := text "verifications_pending_uniq"

def isPendingCodeCollision {ε : Type*} (err : Caught ε) : Bool :=
  if !err.isObject then false
  else err.code = some uniqueViolation && err.constraintName = some pendingUniq

/-- Labels of `metrics.verificationCodeCollision`. -/
inductive CollisionOutcome where
  | retried
  | exhausted
  deriving DecidableEq, Repr

/-- What the loop does, in order. -/
inductive RetryEffect where
  | generateCode (code : Text)
  | attempt (code : Text)
  | verificationCodeCollision (outcome : CollisionOutcome)
  deriving DecidableEq, Repr

def codeGenerationCollision : ApiError :=
  serviceUnavailable "code_generation_collision"
    "could not allocate a unique verification code after multiple attempts; retry the request"

section

variable {ε α : Type*} (attempt : Nat → Text → Except (Caught ε) α) (codes : Nat → Text)

/-- The loop at its `i`-th pass, with so many left. `attempt i` is what the attempt function comes
to when it is called there, and `codes i` what `generateCode` returns. -/
def collisionLoop : Nat → Nat → List RetryEffect × Except (Caught ε) α
  | 0, _ => ([.verificationCodeCollision .exhausted], .error (.api codeGenerationCollision))
  | left + 1, i =>
    let code := codes i
    match attempt i code with
    | .ok result => ([.generateCode code, .attempt code], .ok result)
    | .error err =>
      if !isPendingCodeCollision err then ([.generateCode code, .attempt code], .error err)
      else
        let rest := collisionLoop left (i + 1)
        ([.generateCode code, .attempt code, .verificationCodeCollision .retried] ++ rest.1, rest.2)

def runWithCodeCollisionRetry : List RetryEffect × Except (Caught ε) α :=
  collisionLoop attempt codes maxCodeCollisionRetries 0

end

/-! ## The attempts of a start -/

/-- What the attempt function of `startVerification` comes to; what the database throws otherwise is
not looked at. -/
abbrev AttemptResult := Except (Caught Unit) (PickedReceiver × Text)

/-- What the INSERT throws where the index has an entry. -/
def pendingUniqViolation : Caught Unit := .object (some uniqueViolation) (some pendingUniq) ()

/-- What a statement that leads from one stage to another makes of the attempt it ends. -/
def StartPhase.ended : StartPhase → StartPhase → Option AttemptResult
  | .countPending _, .done (.error e) | .pickAny _, .done (.error e) => some (.error (.api e))
  | .insert _ _, .lockPhone _ _ | .insert _ _, .done _ => some (.error pendingUniqViolation)
  | .commit receiver row, .done _ => some (.ok (receiver, row.code))
  | _, _ => none

/-- Whether an attempt is open: a statement that throws ends it. -/
def StartPhase.attempting : StartPhase → Bool
  | .checkBinding | .done _ | .failed => false
  | _ => true

/-- The code an attempt starts with. -/
def StartPhase.draws (env : Env) (w : World) : StartPhase → List Text
  | .lockPhone _ _ => [generateCode env.config.verificationCodeLength w.random]
  | _ => []

/-- What a statement that throws makes of the attempt it ends. -/
def StartPhase.thrownResult (phase : StartPhase) : List AttemptResult :=
  if phase.attempting then [.error (.value ())] else []

/-- The result of the attempt that a turn of the call at position `i` ends, seen with the states
before and after. When the process crashes there is none. -/
def attemptResult (i : Nat) (p : Server) (m : Move) (q : Server) : List AttemptResult :=
  match p.calls[i]?, q.calls[i]?, m with
  | some (.start _ phase), some (.start _ phase'), .statement _ => (phase.ended phase').toList
  | some (.start _ phase), _, .error | some (.start _ phase), _, .lost _ => phase.thrownResult
  | _, _, _ => []

/-- The code that a turn draws, -/
def drawnCode (env : Env) (i : Nat) (p : Server) (m : Move) (_ : Server) : List Text :=
  match p.calls[i]?, m with
  | some (.start _ phase), .statement w => phase.draws env w
  | _, _ => []

/-- and the rows that it adds to `verifications`. -/
def committedRow (p : Server) (_ : Move) (q : Server) : List Verification :=
  q.store.verifications.drop p.store.verifications.length

/-- What the turns of the call at position `i` leave. -/
def turnsOf {β : Type*} (env : Env) (f : Server → Move → Server → List β) (i : Nat)
    (log : List (Server × Act Request Move)) : List β :=
  log.flatMap fun e =>
    match e.2 with
    | .arrive _ => []
    | .turn j m =>
      if j = i then ((Pool.step (server env) e.1 e.2).toList).flatMap (f e.1 m) else []

/-- The results of the attempts of a start, -/
def attemptResults (env : Env) (i : Nat) : List (Server × Act Request Move) → List AttemptResult :=
  turnsOf env (attemptResult i) i

/-- the codes it draws, one for each attempt whose transaction has begun, -/
def drawnCodes (env : Env) (i : Nat) : List (Server × Act Request Move) → List Text :=
  turnsOf env (drawnCode env i) i

/-- and the rows it commits. -/
def committedRows (env : Env) (i : Nat) : List (Server × Act Request Move) → List Verification :=
  turnsOf env committedRow i

end Syrotp
