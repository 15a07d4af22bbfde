import Syrotp.Misc.Rounds
import Syrotp.Server.CodeCollision
import Syrotp.Server.Proofs.PendingCap

/-!
# Retries on a code collision

The loop goes on only after a violation of the index on pending verifications, so an attempt that
has committed is the last one. A start follows the loop in every run of the server.
-/

namespace Syrotp

/-! ## The loop -/

section

variable {ε α : Type*}

/-- The attempt has failed with a unique violation on `verifications_pending_uniq`. -/
def Collides (r : Except (Caught ε) α) : Prop :=
  ∃ e, r = .error (.object (some uniqueViolation) (some pendingUniq) e)

def collides : Except (Caught ε) α → Bool
  | .ok _ => false
  | .error err => isPendingCodeCollision err

theorem collides_iff {r : Except (Caught ε) α} : collides r = true ↔ Collides r := by
  constructor
  · intro h
    cases r with
    | ok a => exact absurd h Bool.false_ne_true
    | error err =>
      cases err with
      | value e => exact absurd h Bool.false_ne_true
      | api e => exact absurd h (by simp [collides, isPendingCodeCollision, Caught.constraintName])
      | object code constraintName e =>
        simp only [collides, isPendingCodeCollision, Caught.isObject, Caught.code,
          Caught.constraintName, Bool.not_true, Bool.false_eq_true, if_false,
          Bool.and_eq_true] at h
        obtain rfl := of_decide_eq_true h.1
        obtain rfl := of_decide_eq_true h.2
        exact ⟨e, rfl⟩
  · rintro ⟨e, rfl⟩
    simp [collides, isPendingCodeCollision, Caught.isObject, Caught.code, Caught.constraintName]

def RetryEffect.attempted : RetryEffect → Option Text
  | .attempt code => some code
  | _ => none

def RetryEffect.generated : RetryEffect → Option Text
  | .generateCode code => some code
  | _ => none

variable {attempt : Nat → Text → Except (Caught ε) α} {codes : Nat → Text} {left k : Nat}

/-- What is asked of the loop, for the attempts it makes: there are `n` of them. -/
structure RetriesCollisions (attempt : Nat → Text → Except (Caught ε) α) (codes : Nat → Text)
    (n : Nat) (run : List RetryEffect × Except (Caught ε) α) : Prop where
  bounded : 0 < n ∧ n ≤ maxCodeCollisionRetries
  /-- Each of them has a code of its own. -/
  generated : run.1.filterMap RetryEffect.generated = (List.range n).map codes
  attempted : run.1.filterMap RetryEffect.attempted = (List.range n).map codes
  retried : ∀ i, i + 1 < n → Collides (attempt i (codes i))
  /-- The last one is the result, unless it collides, too. -/
  passed : ∀ i, i + 1 = n → ¬Collides (attempt i (codes i)) → run.2 = attempt i (codes i)
  exhausted : ∀ i, i + 1 = n → Collides (attempt i (codes i)) →
    n = maxCodeCollisionRetries ∧ run.2 = .error (.api codeGenerationCollision)
  once : ((List.range n).filter fun i => (attempt i (codes i)).isOk).length ≤ 1

/-- An attempt asks for another. -/
def goesOn (attempt : Nat → Text → Except (Caught ε) α) (codes : Nat → Text) (k : Nat) : Bool :=
  collides (attempt k (codes k))

/-- A pass before the last, -/
def passEffects (codes : Nat → Text) (k : Nat) : List RetryEffect :=
  [.generateCode (codes k), .attempt (codes k), .verificationCodeCollision .retried]

/-- and the end of the loop. -/
def lastPass (attempt : Nat → Text → Except (Caught ε) α) (codes : Nat → Text) :
    Nat → Nat → List RetryEffect × Except (Caught ε) α
  | 0, _ => ([.verificationCodeCollision .exhausted], .error (.api codeGenerationCollision))
  | _ + 1, k => ([.generateCode (codes k), .attempt (codes k)], attempt k (codes k))

theorem collisionLoop_succ : collisionLoop attempt codes (left + 1) k =
    if goesOn attempt codes k then
      (passEffects codes k ++ (collisionLoop attempt codes left (k + 1)).1,
        (collisionLoop attempt codes left (k + 1)).2)
    else lastPass attempt codes (left + 1) k := by
  rw [collisionLoop, goesOn, lastPass]
  cases attempt k (codes k) with
  | ok result => rfl
  | error err =>
    cases collision : isPendingCodeCollision err with
    | true => simp [collides, collision, passEffects]
    | false => simp [collides, collision]

/-- The index of the last pass; it is no attempt if it is `maxCodeCollisionRetries`. -/
def lastPassOf (attempt : Nat → Text → Except (Caught ε) α) (codes : Nat → Text) : Nat :=
  lastFrom (goesOn attempt codes) maxCodeCollisionRetries 0

theorem runWithCodeCollisionRetry_eq : runWithCodeCollisionRetry attempt codes =
    ((List.range (lastPassOf attempt codes)).flatMap (passEffects codes) ++
      (lastPass attempt codes (maxCodeCollisionRetries - lastPassOf attempt codes)
        (lastPassOf attempt codes)).1,
      (lastPass attempt codes (maxCodeCollisionRetries - lastPassOf attempt codes)
        (lastPassOf attempt codes)).2) := by
  have ends : ∀ k, collisionLoop attempt codes 0 k = lastPass attempt codes 0 k := fun _ => rfl
  have eq := @rounds_eq (goesOn attempt codes) maxCodeCollisionRetries 0 _ _ _ _ _ ends
    fun _ _ => collisionLoop_succ
  rw [runWithCodeCollisionRetry, eq, List.range_eq_range', lastPassOf, Nat.zero_add]
  rfl

/-- How many attempts are made. -/
def attemptsMade (attempt : Nat → Text → Except (Caught ε) α) (codes : Nat → Text) : Nat :=
  min maxCodeCollisionRetries (lastPassOf attempt codes + 1)

variable (attempt codes) in
theorem attemptsMade_pos : 0 < attemptsMade attempt codes :=
  Nat.lt_min.mpr ⟨by decide, Nat.succ_pos _⟩

variable (attempt codes) in
theorem lastPassOf_le : lastPassOf attempt codes ≤ maxCodeCollisionRetries := by
  have within : lastFrom (goesOn attempt codes) maxCodeCollisionRetries 0 ≤
      0 + maxCodeCollisionRetries := lastFrom_le
  rwa [Nat.zero_add] at within

variable (attempt codes) in
/-- The loop is used up, or its last pass is an attempt that asks for no other. -/
theorem passes_cases :
    (lastPassOf attempt codes = maxCodeCollisionRetries ∧
      attemptsMade attempt codes = maxCodeCollisionRetries ∧
      (runWithCodeCollisionRetry attempt codes).2 = .error (.api codeGenerationCollision)) ∨
    (attemptsMade attempt codes = lastPassOf attempt codes + 1 ∧
      lastPassOf attempt codes < maxCodeCollisionRetries ∧
      (runWithCodeCollisionRetry attempt codes).2 =
        attempt (lastPassOf attempt codes) (codes (lastPassOf attempt codes)) ∧
      ¬Collides (attempt (lastPassOf attempt codes) (codes (lastPassOf attempt codes)))) := by
  rw [runWithCodeCollisionRetry_eq]
  rcases Nat.eq_or_lt_of_le (lastPassOf_le attempt codes) with used | before
  · refine .inl ⟨used, ?_, ?_⟩
    · rw [attemptsMade, used]
      exact Nat.min_eq_left (Nat.le_succ _)
    · rw [used, Nat.sub_self, lastPass]
  · obtain ⟨more, remaining⟩ := Nat.exists_eq_succ_of_ne_zero (Nat.sub_ne_zero_of_lt before)
    refine .inr ⟨Nat.min_eq_right before, before, ?_, fun collision => ?_⟩
    · rw [remaining, lastPass]
    · have asks : goesOn attempt codes (lastPassOf attempt codes) = true :=
        collides_iff.mpr collision
      have ends : lastPassOf attempt codes = 0 + maxCodeCollisionRetries ∨
          goesOn attempt codes (lastPassOf attempt codes) = false := lastFrom_ends
      rcases ends with used | stops
      · exact absurd (used.trans (Nat.zero_add _)) (Nat.ne_of_lt before)
      · exact absurd asks (Bool.eq_false_iff.mp stops)

/-- What a pass shows of its code, the last pass does if it is an attempt. -/
theorem filterMap_passes {shows : RetryEffect → Option Text}
    (pass : ∀ k, (passEffects codes k).filterMap shows = [codes k])
    (last : ∀ k, [RetryEffect.generateCode (codes k), .attempt (codes k)].filterMap shows =
      [codes k])
    (none : shows (.verificationCodeCollision .exhausted) = none) :
    (runWithCodeCollisionRetry attempt codes).1.filterMap shows =
      (List.range (attemptsMade attempt codes)).map codes := by
  rw [runWithCodeCollisionRetry_eq, List.filterMap_append, List.filterMap_flatMap]
  simp only [pass]
  rcases passes_cases attempt codes with ⟨used, made, -⟩ |
    ⟨made, before, -, -⟩
  · rw [made, used, Nat.sub_self, lastPass]
    simp [none, ← List.map_eq_flatMap]
  · obtain ⟨more, remaining⟩ := Nat.exists_eq_succ_of_ne_zero (Nat.sub_ne_zero_of_lt before)
    rw [made, remaining, lastPass, last, List.range_succ, List.map_append]
    simp [← List.map_eq_flatMap]

theorem collides_of_lt {i : Nat} (before : i < lastPassOf attempt codes) :
    Collides (attempt i (codes i)) :=
  collides_iff.mp (again_of_lt_lastFrom (Nat.zero_le i) before)

variable (attempt codes) in
/-- The loop does what is asked of it. -/
theorem retriesCollisions : RetriesCollisions attempt codes (attemptsMade attempt codes)
    (runWithCodeCollisionRetry attempt codes) where
  bounded := ⟨attemptsMade_pos attempt codes, Nat.min_le_left ..⟩
  generated := filterMap_passes (fun _ => rfl) (fun _ => rfl) rfl
  attempted := filterMap_passes (fun _ => rfl) (fun _ => rfl) rfl
  retried := fun i before => collides_of_lt
    (Nat.lt_of_succ_lt_succ (Nat.lt_of_lt_of_le before (Nat.min_le_right ..)))
  passed := by
    intro i last other
    rcases passes_cases attempt codes with ⟨used, made, -⟩ |
      ⟨made, before, result, -⟩
    · exact absurd (collides_of_lt (by omega)) other
    · obtain rfl : i = lastPassOf attempt codes := by omega
      exact result
  exhausted := by
    intro i last collision
    rcases passes_cases attempt codes with ⟨used, made, result⟩ |
      ⟨made, before, -, other⟩
    · exact ⟨made, result⟩
    · obtain rfl : i = lastPassOf attempt codes := by omega
      exact absurd collision other
  once := by
    obtain ⟨last, made⟩ := Nat.exists_eq_succ_of_ne_zero (Nat.ne_of_gt
      (attemptsMade_pos attempt codes))
    have retried : ∀ i ∈ List.range last, ¬(attempt i (codes i)).isOk = true := by
      intro i hi ok
      have within : attemptsMade attempt codes ≤ lastPassOf attempt codes + 1 :=
        Nat.min_le_right ..
      have before : i < lastPassOf attempt codes := by
        have := List.mem_range.mp hi
        omega
      obtain ⟨e, collision⟩ := collides_of_lt before
      rw [collision] at ok
      exact absurd ok Bool.false_ne_true
    rw [made, List.range_succ, List.filter_append, List.filter_eq_nil_iff.mpr retried]
    exact List.length_filter_le ..

end

/-! ## The attempts of a start -/

/-- An attempt function with these results. -/
def attemptOf (results : List AttemptResult) (k : Nat) (_ : Text) : AttemptResult :=
  results[k]?.getD (.error (.value ()))

/-- The loop on them. -/
def replay (results : List AttemptResult) : List RetryEffect × AttemptResult :=
  runWithCodeCollisionRetry (attemptOf results) fun _ => []

/-- So many attempts have been made, and the loop goes on. -/
structure Asked (results : List AttemptResult) (n : Nat) : Prop where
  length : results.length = n
  more : n < maxCodeCollisionRetries
  collide : ∀ r ∈ results, Collides r

/-- The loop makes just these attempts, and that is its result. -/
structure Finished (results : List AttemptResult) (r : AttemptResult) : Prop where
  attempts : ((replay results).1.filterMap RetryEffect.attempted).length = results.length
  result : (replay results).2 = r

section

variable {results : List AttemptResult} {r : AttemptResult} {n : Nat}

theorem Asked.nil : Asked [] 0 := ⟨rfl, by decide, List.forall_mem_nil _⟩

theorem Asked.next (h : Asked results n) (collision : Collides r)
    (more : n + 1 < maxCodeCollisionRetries) : Asked (results ++ [r]) (n + 1) :=
  ⟨by rw [List.length_append, h.length]; rfl, more,
    List.forall_mem_append.mpr ⟨h.collide, List.forall_mem_singleton.mpr collision⟩⟩

theorem Asked.last_attempt (h : Asked results n) {code : Text} :
    attemptOf (results ++ [r]) n code = r := by
  simp [attemptOf, ← h.length]

/-- The loop makes one more attempt, and no other after it. -/
theorem Asked.attempts_made (h : Asked results n)
    (last : Collides r → n + 1 = maxCodeCollisionRetries) :
    attemptsMade (attemptOf (results ++ [r])) (fun _ => []) = n + 1 := by
  have contract := retriesCollisions (attemptOf (results ++ [r])) fun _ => []
  have here : attemptOf (results ++ [r]) n [] = r := h.last_attempt
  have earlier : ∀ i < n, Collides (attemptOf (results ++ [r]) i []) := by
    intro i before
    have inside : i < results.length := h.length ▸ before
    rw [attemptOf, List.getElem?_append_left inside, List.getElem?_eq_getElem inside]
    exact h.collide _ (List.getElem_mem inside)
  generalize attemptsMade (attemptOf (results ++ [r])) (fun _ => []) = made at contract ⊢
  rcases Nat.lt_trichotomy made (n + 1) with fewer | same | more
  · obtain ⟨i, rfl⟩ := Nat.exists_eq_succ_of_ne_zero (Nat.ne_of_gt contract.bounded.1)
    have used := (contract.exhausted i rfl (earlier i (by omega))).1
    exact absurd h.more (by omega)
  · exact same
  · have asks : Collides r := here ▸ contract.retried n more
    exact absurd contract.bounded.2 (by rw [← last asks]; omega)

theorem Asked.finished (h : Asked results n) (other : ¬Collides r) :
    Finished (results ++ [r]) r := by
  have made := h.attempts_made (r := r) fun collision => absurd collision other
  have contract := retriesCollisions (attemptOf (results ++ [r])) fun _ => []
  have here : attemptOf (results ++ [r]) n [] = r := h.last_attempt
  rw [made] at contract
  constructor
  · rw [replay, contract.attempted]
    simp [h.length]
  · rw [replay, contract.passed n rfl (here.symm ▸ other), here]

theorem Asked.exhausted (h : Asked results n) (collision : Collides r)
    (last : n + 1 = maxCodeCollisionRetries) :
    Finished (results ++ [r]) (.error (.api codeGenerationCollision)) := by
  have made := h.attempts_made (r := r) fun _ => last
  have contract := retriesCollisions (attemptOf (results ++ [r])) fun _ => []
  have here : attemptOf (results ++ [r]) n [] = r := h.last_attempt
  rw [made] at contract
  constructor
  · rw [replay, contract.attempted]
    simp [h.length]
  · exact (contract.exhausted n rfl (here.symm ▸ collision)).2

end

/-! ## Runs of the server -/

/-- What a start has to show in the attempt with this number and this code. -/
structure Attempting (results : List AttemptResult) (drawn : List Text) (rows : List Verification)
    (number : Nat) (code : Text) : Prop where
  asked : Asked results number
  count : drawn.length = number + 1
  code : drawn.getLast? = some code
  uncommitted : rows = []

/-- What a start has to show at each of its stages for its attempts, the codes it has drawn and the
rows it has committed. -/
def StartPhase.Account (results : List AttemptResult) (drawn : List Text)
    (rows : List Verification) : StartPhase → Prop
  | .checkBinding => results = [] ∧ drawn = [] ∧ rows = []
  | .lockPhone _ number => Asked results number ∧ drawn.length = number ∧ rows = []
  | .countPending a | .pickPreferred a _ | .pickAny a | .insert a _ =>
    Attempting results drawn rows a.number a.code
  | .commit _ row => ∃ number, Attempting results drawn rows number row.code
  | .done (.ok v) => ∃ receiver row, rows = [row] ∧ Finished results (.ok (receiver, row.code)) ∧
      drawn.length = results.length ∧ drawn.getLast? = some row.code ∧ v.id = row.id ∧
      v.sendTo = some receiver.msisdn ∧ v.message = some (verifyPrefix ++ text " " ++ row.code)
  | .done (.error e) => rows = [] ∧ drawn.length = results.length ∧
      (results = [] ∧ e = phoneNotBound ∨ Finished results (.error (.api e)))
  | .failed => drawn.length ≤ maxCodeCollisionRetries ∧
      (rows = [] ∨ ∃ row, rows = [row] ∧ drawn.getLast? = some row.code) ∧
      ((∃ number, Asked results number) ∨ Finished results (.error (.value ())))

section

variable {env : Env} {input : StartVerificationInput} {phase phase' : StartPhase} {v : View}
  {w : World} {x : Option Write} {results : List AttemptResult} {drawn : List Text}
  {rows : List Verification}

/-- Other errors are no collisions. -/
theorem not_collides_api {e : ApiError} : ¬Collides (.error (.api e) : AttemptResult) := by
  rintro ⟨e', same⟩
  cases same

theorem not_collides_value : ¬Collides (.error (.value ()) : AttemptResult) := by
  rintro ⟨e', same⟩
  cases same

theorem not_collides_ok {a : PickedReceiver × Text} : ¬Collides (.ok a : AttemptResult) := by
  rintro ⟨e', same⟩
  cases same

/-- The rows a statement of a start adds. -/
def addedRows : Option Write → List Verification
  | some (.insertVerification row) => [row]
  | _ => []

/-- A statement keeps the account. -/
theorem StartPhase.Account.statement (account : phase.Account results drawn rows)
    (h : startVerification env v w input phase = some (phase', x)) :
    phase'.Account (results ++ (phase.ended phase').toList) (drawn ++ phase.draws env w)
      (rows ++ addedRows x) := by
  have step := startVerification_step h
  cases step with
  | bound =>
    obtain ⟨rfl, rfl, rfl⟩ := account
    exact ⟨.nil, rfl, rfl⟩
  | unbound =>
    obtain ⟨rfl, rfl, rfl⟩ := account
    exact ⟨rfl, rfl, .inl ⟨rfl, rfl⟩⟩
  | locked =>
    obtain ⟨asked, count, rfl⟩ := account
    refine ⟨by simpa [StartPhase.ended] using asked, ?_, ?_, rfl⟩
    · simp [StartPhase.draws, count]
    · simp [StartPhase.draws]
  | tooMany =>
    obtain ⟨asked, count, -, rfl⟩ := account
    refine ⟨rfl, ?_, .inr (asked.finished not_collides_api)⟩
    simp [StartPhase.draws, StartPhase.ended, count, asked.length]
  | noReceiver =>
    obtain ⟨asked, count, -, rfl⟩ := account
    refine ⟨rfl, ?_, .inr (asked.finished not_collides_api)⟩
    simp [StartPhase.draws, StartPhase.ended, count, asked.length]
  | preferring | counted | preferred | fallback | picked =>
    simpa [StartPhase.Account, StartPhase.draws, StartPhase.ended, addedRows] using account
  | @inserted a receiver =>
    have attempting : Attempting results drawn rows a.number a.code := account
    refine ⟨a.number, ?_⟩
    simpa [StartPhase.draws, StartPhase.ended, addedRows, StartAttempt.row] using attempting
  | @collided a receiver =>
    obtain ⟨asked, count, -, rfl⟩ := account
    have collision : Collides (.error pendingUniqViolation : AttemptResult) := ⟨(), rfl⟩
    unfold afterCollision
    split
    · next more =>
      refine ⟨asked.next collision more, ?_, rfl⟩
      simp [StartPhase.draws, count]
    · next used =>
      have last : a.number + 1 = maxCodeCollisionRetries :=
        Nat.le_antisymm asked.more (Nat.not_lt.mp used)
      refine ⟨rfl, ?_, .inr (asked.exhausted collision last)⟩
      simp [StartPhase.draws, StartPhase.ended, count, asked.length]
  | @committed receiver row result =>
    obtain ⟨number, asked, count, last, rfl⟩ := account
    obtain ⟨same, -⟩ := Prod.mk.inj (Option.some.inj h)
    obtain rfl := Except.ok.inj (StartPhase.done.inj same)
    refine ⟨receiver, row, rfl, asked.finished not_collides_ok, ?_, ?_, rfl, rfl, rfl⟩
    · simp [StartPhase.draws, StartPhase.ended, count, asked.length]
    · simpa [StartPhase.draws] using last

/-- Where the attempts of a start in flight are. -/
theorem StartPhase.Account.inFlight (account : phase.Account results drawn rows)
    (flying : (Call.start input phase).inFlight = true) :
    rows = [] ∧ drawn.length ≤ maxCodeCollisionRetries ∧
      (if phase.attempting then ∃ number, Asked results number else results = []) := by
  have open' : ∀ number code, Attempting results drawn rows number code →
      rows = [] ∧ drawn.length ≤ maxCodeCollisionRetries ∧ ∃ number, Asked results number :=
    fun number code attempting => ⟨attempting.uncommitted,
      attempting.count ▸ attempting.asked.more, number, attempting.asked⟩
  cases phase with
  | checkBinding =>
    obtain ⟨rfl, rfl, rfl⟩ := account
    exact ⟨rfl, Nat.zero_le _, rfl⟩
  | lockPhone draft number =>
    obtain ⟨asked, count, rfl⟩ := account
    exact ⟨rfl, count ▸ Nat.le_of_lt asked.more, number, asked⟩
  | countPending a | pickPreferred a _ | pickAny a | insert a _ => exact open' _ _ account
  | commit receiver row =>
    obtain ⟨number, attempting⟩ := account
    exact open' _ _ attempting
  | done result => exact absurd flying Bool.false_ne_true
  | failed => exact absurd flying Bool.false_ne_true

/-- A crash keeps the account, -/
theorem StartPhase.Account.crashed (account : phase.Account results drawn rows)
    (flying : (Call.start input phase).inFlight = true) :
    StartPhase.failed.Account results drawn rows := by
  obtain ⟨uncommitted, count, asked⟩ := account.inFlight flying
  refine ⟨count, .inl uncommitted, .inl ?_⟩
  split at asked
  · exact asked
  · exact ⟨0, asked ▸ .nil⟩

/-- and so does a statement that throws, whether or not it has committed. -/
theorem StartPhase.Account.thrown (account : phase.Account results drawn rows)
    (flying : (Call.start input phase).inFlight = true)
    (own : ∀ row ∈ addedRows x, ∃ receiver, phase = .commit receiver row) :
    StartPhase.failed.Account (results ++ phase.thrownResult) drawn (rows ++ addedRows x) := by
  obtain ⟨uncommitted, count, asked⟩ := account.inFlight flying
  refine ⟨count, ?_, ?_⟩
  · cases added : addedRows x with
    | nil => exact .inl ((List.append_nil rows).trans uncommitted)
    | cons row more =>
      obtain ⟨receiver, rfl⟩ := own row (added ▸ List.mem_cons_self)
      obtain ⟨number, attempting⟩ := account
      refine .inr ⟨row, ?_, attempting.code⟩
      have one : more = [] := by
        unfold addedRows at added
        split at added
        · exact (List.cons.inj added).2.symm
        · cases added
      rw [uncommitted, one, List.nil_append]
  · unfold StartPhase.thrownResult
    split at asked
    · next attempting =>
      obtain ⟨number, asked⟩ := asked
      exact .inr (if_pos attempting ▸ asked.finished not_collides_value)
    · next outside =>
      refine .inl ⟨0, ?_⟩
      rw [if_neg outside, asked]
      exact .nil

/-! ## Turns in the log -/

variable {β : Type*} {f : Server → Move → Server → List β} {i : Nat}
  {log : List (Server × Act Request Move)} {p q : Server} {m : Move}

theorem turnsOf_none (idle : ∀ e ∈ log, ∀ m, e.2 ≠ .turn i m) : turnsOf env f i log = [] := by
  refine List.flatMap_eq_nil_iff.mpr fun e he => ?_
  have other := idle e he
  split
  · rfl
  · next j m acting =>
    have ne : j ≠ i := fun same => other m (same ▸ acting)
    rw [if_neg ne]

theorem turnsOf_other {a : Act Request Move} (other : ∀ m, a ≠ .turn i m) :
    turnsOf env f i (log ++ [(q, a)]) = turnsOf env f i log := by
  have none : turnsOf env f i [(q, a)] = [] :=
    turnsOf_none fun e he m => List.mem_singleton.mp he ▸ other m
  rw [turnsOf, List.flatMap_append]
  exact (congrArg _ none).trans (List.append_nil _)

theorem turnsOf_turn (h : Pool.step (server env) p (.turn i m) = some q) :
    turnsOf env f i (log ++ [(p, .turn i m)]) = turnsOf env f i log ++ f p m q := by
  rw [turnsOf, List.flatMap_append, List.flatMap_singleton, turnsOf]
  simp [h]

/-- The rows a statement of a start leaves behind those before. -/
theorem drop_commitOption {db : Db} (h : startVerification env v w input phase = some (phase', x)) :
    (db.commitOption x).verifications.drop db.verifications.length = addedRows x := by
  rcases startVerification_origin h with rfl | ⟨receiver, row, -, rfl⟩
  · exact List.drop_length
  · exact List.drop_left

theorem attemptResult_crash : attemptResult i p .crash q = [] := by
  unfold attemptResult
  split
  · next same => cases same
  · next same => cases same
  · next same => cases same
  · rfl

/-- The account of a call that is a start. -/
def InOrder (env : Env) (log : List (Server × Act Request Move)) (i : Nat) (c : Call) : Prop :=
  ∀ (input : StartVerificationInput) (phase : StartPhase), c = .start input phase →
    phase.Account (attemptResults env i log) (drawnCodes env i log) (committedRows env i log)

/-- A turn keeps the account. -/
theorem inOrder_turn {c : Call} {t : Turn Db Call} (run : ServerRun env log q)
    (hc : q.calls[i]? = some c) (turn : (server env).turn q.store (q.others i) c m = some t)
    (inOrder : InOrder env log i c) : InOrder env (log ++ [(q, .turn i m)]) i t.call := by
  intro input phase' after
  have settled := (ServerRun.good run).settled hc
  have turned := turn_cases settled.inv settled.self turn
  obtain ⟨phase, rfl⟩ := Call.start_of_crashed (turned.crashed.symm.trans (congrArg _ after))
  have account := inOrder input phase rfl
  have hs : Pool.step (server env) q (.turn i m) =
      some ⟨t.store, q.calls.set i t.call ++ t.spawned⟩ := by
    rw [Pool.step, hc]
    exact congrArg (Option.map _) turn
  have next := (Pool.turned_self (t := t) hc).trans (congrArg some after)
  rw [attemptResults, drawnCodes, committedRows, turnsOf_turn hs, turnsOf_turn hs,
    turnsOf_turn hs]
  cases turned with
  | @statement w t x _ _ _ _ ran =>
    obtain ⟨⟨phase'', x⟩, hr, rfl⟩ := Option.map_eq_some_iff.mp ran
    obtain ⟨-, rfl⟩ := Call.start.inj after
    simp only [attemptResult, drawnCode, hc, next]
    have kept := account.statement hr
    rw [← drop_commitOption hr] at kept
    exact kept
  | error flying =>
    obtain ⟨-, rfl⟩ := Call.start.inj after
    simp only [attemptResult, drawnCode, hc, List.append_nil]
    have kept := account.thrown (x := none) flying (List.forall_mem_nil _)
    rw [show addedRows none = q.store.verifications.drop q.store.verifications.length from
      List.drop_length.symm] at kept
    exact kept
  | @lost w t x _ _ _ ran =>
    obtain ⟨⟨phase'', x⟩, hr, rfl⟩ := Option.map_eq_some_iff.mp ran
    obtain ⟨-, rfl⟩ := Call.start.inj after
    simp only [attemptResult, drawnCode, hc, List.append_nil]
    have flying : (Call.start input phase).inFlight = true := by
      cases startVerification_step hr <;> rfl
    have kept := account.thrown (x := x) flying fun row added => ?_
    · rw [← drop_commitOption hr] at kept
      exact kept
    · rcases startVerification_origin hr with rfl | ⟨receiver, row', rfl, rfl⟩
      · cases added
      · exact ⟨receiver, List.mem_singleton.mp added ▸ rfl⟩
  | crash flying =>
    obtain ⟨-, rfl⟩ := Call.start.inj after
    have kept := account.crashed flying
    rw [← List.append_nil (committedRows env i log), ← List.drop_length] at kept
    rw [attemptResult_crash]
    simp only [drawnCode, hc, List.append_nil]
    exact kept

/-- Every start has its account in order. -/
theorem ServerRun.account {log : List (Server × Act Request Move)} {p : Server}
    (run : ServerRun env log p) : ∀ i c, p.calls[i]? = some c → InOrder env log i c := by
  refine Pool.call_history (K := InOrder env) ?frame ?first ?admitted ?spawned
    (fun log q i c m t run hc turn => inOrder_turn run hc turn) run
  case frame =>
    intro log q a i c other account input phase same
    rw [attemptResults, drawnCodes, committedRows, turnsOf_other other, turnsOf_other other,
      turnsOf_other other]
    exact account input phase same
  case first => exact fun i c hc => absurd hc (by simp [Server.init])
  case admitted =>
    rintro d r c hc log i idle input phase rfl
    have fresh : phase = .checkBinding := by
      cases r with
      | startVerification r =>
        simp only [server, accept] at hc
        split at hc
        · cases hc
        · exact (Call.start.inj (Option.some.inj hc)).2.symm
      | inbound receiverId body =>
        simp only [server, accept] at hc
        split at hc <;> cases hc
      | _ => cases hc
    subst fresh
    exact ⟨turnsOf_none idle, turnsOf_none idle, turnsOf_none idle⟩
  case spawned =>
    rintro log q i c m t run hc turn n new log' j idle input phase rfl
    have settled := (ServerRun.good run).settled hc
    cases turn_cases settled.inv settled.self turn with
    | statement _ _ _ spawned =>
      obtain ⟨_, same⟩ := spawned _ new
      cases same
    | _ => cases new

/-- The index has an entry with the key of the row that the call at position `i` inserts. -/
def ViolatesPendingUniq (p : Server) (i : Nat) : Prop :=
  ∃ input a receiver, p.calls[i]? = some (.start input (.insert a receiver)) ∧
    ∃ x ∈ p.store.verifications, pendingWith receiver.id input.phoneE164 a.code x = true

theorem ended_collides {r : AttemptResult} (ended : phase.ended phase' = some r)
    (collision : Collides r) : ∃ a receiver, phase = .insert a receiver := by
  unfold StartPhase.ended at ended
  split at ended
  · obtain rfl := Option.some.inj ended
    exact absurd collision not_collides_api
  · obtain rfl := Option.some.inj ended
    exact absurd collision not_collides_api
  · exact ⟨_, _, rfl⟩
  · exact ⟨_, _, rfl⟩
  · obtain rfl := Option.some.inj ended
    exact absurd collision not_collides_ok
  · cases ended

/-- The INSERT of an attempt that collides has found an entry. -/
theorem collided_violates {a : StartAttempt} {receiver : PickedReceiver} {r : AttemptResult}
    (h : startVerification env v w input (.insert a receiver) = some (phase', x))
    (ended : (StartPhase.insert a receiver).ended phase' = some r) :
    ∃ y ∈ v.db.verifications, pendingWith receiver.id input.phoneE164 a.code y = true := by
  simp only [startVerification, Option.ite_none_left_eq_some] at h
  obtain ⟨-, -, h⟩ := h
  split at h
  · obtain ⟨rfl, -⟩ := Prod.mk.inj (Option.some.inj h)
    cases ended
  · next other found => exact ⟨other, List.mem_of_find?_eq_some found, List.find?_some found⟩

/-- What a step of the log leaves, a turn of the call leaves. -/
theorem mem_turnsOf_singleton {e : Server × Act Request Move} {b : β}
    (left : b ∈ turnsOf env f i [e]) :
    ∃ m q, e.2 = .turn i m ∧ Pool.step (server env) e.1 (.turn i m) = some q ∧ b ∈ f e.1 m q := by
  rw [turnsOf, List.flatMap_singleton] at left
  split at left
  · cases left
  · next j m acting =>
    split at left
    · next mine =>
      subst mine
      obtain ⟨q, hs, left⟩ := List.mem_flatMap.mp left
      exact ⟨m, q, acting, acting ▸ Option.mem_toList.mp hs, left⟩
    · cases left

theorem not_collides_thrown {r : AttemptResult} (thrown : r ∈ phase.thrownResult) :
    ¬Collides r := by
  unfold StartPhase.thrownResult at thrown
  split at thrown
  · exact List.mem_singleton.mp thrown ▸ not_collides_value
  · cases thrown

/-- An attempt collides only where the index is violated. -/
theorem violates_of_collides {e : Server × Act Request Move} {r : AttemptResult}
    (left : r ∈ attemptResults env i [e]) (collision : Collides r) :
    ViolatesPendingUniq e.1 i := by
  obtain ⟨m, q, -, hs, left⟩ := mem_turnsOf_singleton left
  obtain ⟨c, t, hc, turn, rfl⟩ := Pool.step_turn hs
  have next := Pool.turned_self (t := t) hc
  unfold attemptResult at left
  split at left
  · next input phase input' phase' w here there =>
    obtain rfl := Option.some.inj (hc.symm.trans here)
    obtain ⟨⟨phase'', x⟩, hr, rfl⟩ := Option.map_eq_some_iff.mp turn
    obtain ⟨-, rfl⟩ := Call.start.inj (Option.some.inj (next.symm.trans there))
    have ended := Option.mem_toList.mp left
    obtain ⟨a, receiver, rfl⟩ := ended_collides ended collision
    exact ⟨_, a, receiver, hc, collided_violates hr ended⟩
  · exact absurd collision (not_collides_thrown left)
  · exact absurd collision (not_collides_thrown left)
  · cases left

/-- One row at most. -/
theorem StartPhase.Account.one (account : phase.Account results drawn rows) :
    rows.length ≤ 1 := by
  have none : rows = [] → rows.length ≤ 1 := fun uncommitted => uncommitted ▸ Nat.zero_le 1
  cases phase with
  | checkBinding => exact none account.2.2
  | lockPhone draft number => exact none account.2.2
  | countPending a | pickPreferred a _ | pickAny a | insert a _ => exact none account.uncommitted
  | commit receiver row =>
    obtain ⟨number, attempting⟩ := account
    exact none attempting.uncommitted
  | done result =>
    cases result with
    | error e => exact none account.1
    | ok answer =>
      obtain ⟨receiver, row, rfl, -⟩ := account
      exact Nat.le_refl 1
  | failed =>
    rcases account.2.1 with uncommitted | ⟨row, rfl, -⟩
    · exact none uncommitted
    · exact Nat.le_refl 1

end

/-- The loop retries collisions as it should, whatever its attempts come to. In every run of the
server an attempt of a start collides only where the index is violated, every start is where the
loop is after its attempts, and it commits at most one row: that of its last code, with which it
answers. -/
theorem code_collision_retry (env : Env) :
    (∀ (ε α : Type) (attempt : Nat → Text → Except (Caught ε) α) (codes : Nat → Text),
      ∃ n, RetriesCollisions attempt codes n (runWithCodeCollisionRetry attempt codes)) ∧
    ∀ log p, ServerRun env log p →
      (∀ e ∈ log, ∀ i, ∀ r ∈ attemptResults env i [e], Collides r → ViolatesPendingUniq e.1 i) ∧
      ∀ i input phase, p.calls[i]? = some (.start input phase) →
        phase.Account (attemptResults env i log) (drawnCodes env i log)
          (committedRows env i log) ∧
        (committedRows env i log).length ≤ 1 := by
  refine ⟨fun ε α attempt codes => ⟨_, retriesCollisions attempt codes⟩, fun log p run => ⟨?_, ?_⟩⟩
  · exact fun e he i r ended collision => violates_of_collides ended collision
  · intro i input phase hi
    have account := ServerRun.account run i _ hi input phase rfl
    exact ⟨account, StartPhase.Account.one account⟩

namespace Script

/-- Another start of the phone draws the code of the first, and then another one: call 4. -/
def colliding : List (Act Request Move) :=
  started ++ [.arrive (.startVerification start)] ++ turns 4 5 (world 1040) ++
    turns 4 5 ⟨1050, 1050, (1050 + ·), fun _ => 1, 0⟩

theorem colliding_runs : (result colliding).isSome = true := by decide +kernel

/-- A start that has answered. -/
def isAnswered : Call → Bool
  | .start _ (.done (.ok _)) => true
  | _ => false

end Script

/-- The second code is that of the only row this start commits, and of its answer. -/
theorem code_collision_script : ∃ log p row v, ServerRun .ascii log p ∧
    drawnCodes .ascii 4 log = [text "AAAAAA", text "BBBBBB"] ∧
    committedRows .ascii 4 log = [row] ∧ row.code = text "BBBBBB" ∧
    (∃ input, p.calls[4]? = some (.start input (.done (.ok v)))) ∧ v.id = row.id ∧
    v.message = some (text "VERIFY BBBBBB") := by
  have run := Script.run _ Script.colliding_runs
  obtain ⟨-, holds⟩ := code_collision_retry .ascii
  have answered : ((Script.result Script.colliding).get Script.colliding_runs).2.calls[4]?.any
      Script.isAnswered = true := by decide +kernel
  have codes : drawnCodes .ascii 4 ((Script.result Script.colliding).get
      Script.colliding_runs).1 = [text "AAAAAA", text "BBBBBB"] := by decide +kernel
  obtain ⟨c, hc, there⟩ := (Option.any_eq_true _ _).mp answered
  unfold Script.isAnswered at there
  split at there
  · next input v =>
    obtain ⟨receiver, row, committed, -, -, last, same, -, message⟩ :=
      ((holds _ _ run).2 4 _ _ hc).1
    rw [codes] at last
    have code : row.code = text "BBBBBB" := (Option.some.inj last).symm
    refine ⟨_, _, row, v, run, codes, committed, code, ⟨input, hc⟩, same, ?_⟩
    rw [message, code]
    decide
  · cases there

end Syrotp
