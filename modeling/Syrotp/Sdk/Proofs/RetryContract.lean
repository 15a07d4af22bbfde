import Mathlib.Data.List.Infix
import Syrotp.Misc.Rounds
import Syrotp.Sdk.PythonRetry

/-!
# The retry contract

The blocking executor and the coroutine make the same calls and sleeps, one call more than the
limit at most, and end with what their last call came to. `Retry-After` is an integer of any size,
though, and a wait is a float: one that is out of range ends both executors in an `OverflowError`,
one that `time.sleep` does not take ends the blocking one, and one that is rounded down is too
short. All else is as the contract has it, and these are the only exceptions.
-/

namespace Syrotp.Sdk

variable {ρ α : Type*} {p : Sleeper} {x : Exchange ρ α} {k left : Nat}

/-! ## Outcomes -/

/-- What a call comes to. -/
def Arrival.outcome (onResponse : ρ → Except PyError α) : Arrival ρ → Except PyError α
  | .response res => onResponse res
  | .timeoutException message =>
    .error (.syrotp ⟨.timeout, "timeout", orDefault message "request timed out", 0, none⟩)
  | .httpError message =>
    .error (.syrotp ⟨.network, "network_error", orDefault message "network error", 0, none⟩)
  | .exception name => .error (.exception name)

def Exchange.outcome (x : Exchange ρ α) (k : Nat) : Except PyError α :=
  (x.transport k).outcome x.onResponse

/-- Call `k` ends in an error that is retriable. -/
def Exchange.retried (x : Exchange ρ α) (k : Nat) : Bool :=
  match x.outcome k with
  | .error (.syrotp e) => isRetriable e
  | _ => false

/-- The `Retry-After` value of call `k`, when it ended in a 429 that has one. -/
def Exchange.retryAfter (x : Exchange ρ α) (k : Nat) : Option Nat :=
  match x.outcome k with
  | .error (.syrotp ⟨.rateLimit retryAfterSeconds, _, _, _, _⟩) => retryAfterSeconds
  | _ => none

/-- The wait after call `k`, when it is retriable. -/
def Exchange.wait (x : Exchange ρ α) (k : Nat) : Option ℚ :=
  match x.outcome k with
  | .error (.syrotp e) => if isRetriable e then x.delay k e else none
  | _ => none

/-- There is a wait after call `k`, and `time.sleep` takes it. -/
def Exchange.goesOn (x : Exchange ρ α) (p : Sleeper) (k : Nat) : Bool :=
  (x.wait k).any fun seconds => decide (seconds ≤ p.longest)

/-- An outcome returned or raised. -/
def Ending.of : Except PyError α → Ending α
  | .ok value => .returned value
  | .error e => .raised e

/-- How the loop ends at call `k`, with so many retries left. -/
def Exchange.stop (x : Exchange ρ α) (left k : Nat) : Ending α :=
  if 0 < left ∧ x.retried k then .raised .overflowError else .of (x.outcome k)

theorem backoffFor_le (uniform : ℚ → ℚ → ℚ) (attempt : Nat) :
    backoffFor uniform attempt ≤ backoffCapSeconds := by
  unfold backoffFor
  dsimp only
  split
  · norm_num [backoffCapSeconds]
  · exact min_le_left ..

/-- The last call of the loop. -/
theorem executeFrom_zero : x.executeFrom p 0 k = ([.call k], x.stop 0 k) := by
  unfold Exchange.executeFrom Exchange.stop Exchange.outcome
  cases x.transport k with
  | timeoutException message => simp [Arrival.outcome, Ending.of]
  | httpError message => simp [Arrival.outcome, Ending.of]
  | exception name => simp [Arrival.outcome, Ending.of]
  | response res => rcases came : x.onResponse res with (⟨⟩ | value) <;>
      simp [Arrival.outcome, Ending.of, came]

theorem retried_iff : x.retried k = true ↔
    ∃ e, x.outcome k = .error (.syrotp e) ∧ isRetriable e = true := by
  unfold Exchange.retried
  split
  · next came => simp [came]
  · next other =>
    refine ⟨nofun, fun ⟨e, came, _⟩ => absurd came (other e)⟩

theorem wait_eq {e : SyrotpError} (came : x.outcome k = .error (.syrotp e))
    (again : isRetriable e = true) : x.wait k = x.delay k e := by
  simp [Exchange.wait, came, again]

theorem goesOn_retried (h : x.goesOn p k = true) : x.retried k = true := by
  unfold Exchange.goesOn Exchange.wait at h
  rw [retried_iff]
  split at h
  · next e came =>
    refine ⟨e, came, ?_⟩
    by_contra off
    simp [off] at h
  · exact nomatch h

theorem executeFrom_stop (off : x.retried k = false) :
    x.executeFrom p left k = ([.call k], .of (x.outcome k)) := by
  unfold Exchange.retried Exchange.outcome at off
  unfold Exchange.executeFrom Exchange.outcome
  cases sent : x.transport k with
  | timeoutException message => simp [Arrival.outcome, Ending.of]
  | httpError message => simp [sent, Arrival.outcome, isRetriable] at off
  | exception name => simp [Arrival.outcome, Ending.of]
  | response res =>
    rw [sent] at off
    cases came : x.onResponse res with
    | ok value => simp [Arrival.outcome, Ending.of, came]
    | error e =>
      cases e with
      | syrotp e =>
        have off : isRetriable e = false := by simpa [Arrival.outcome, came] using off
        cases left <;> simp [Arrival.outcome, Ending.of, came, off]
      | exception name => simp [Arrival.outcome, Ending.of, came]
      | valueError => simp [Arrival.outcome, Ending.of, came]
      | overflowError => simp [Arrival.outcome, Ending.of, came]
      | recursionError => simp [Arrival.outcome, Ending.of, came]
      | keyError key => simp [Arrival.outcome, Ending.of, came]

theorem executeFrom_retried {e : SyrotpError} (came : x.outcome k = .error (.syrotp e))
    (again : isRetriable e = true) :
    x.executeFrom p (left + 1) k =
      let rest := (x.delay k e).elim ([], .raised .overflowError) fun seconds =>
        sleepThen p seconds (x.executeFrom p left (k + 1))
      (.call k :: rest.1, rest.2) := by
  unfold Exchange.outcome at came
  conv_lhs => unfold Exchange.executeFrom
  cases sent : x.transport k with
  | timeoutException message =>
    rw [sent, Arrival.outcome, Except.error.injEq, PyError.syrotp.injEq] at came
    simp [← came, isRetriable] at again
  | httpError message =>
    rw [sent, Arrival.outcome, Except.error.injEq, PyError.syrotp.injEq] at came
    simp [← came, Exchange.delay]
  | exception name => simp [sent, Arrival.outcome] at came
  | response res =>
    have came : x.onResponse res = .error (.syrotp e) := by rwa [sent] at came
    cases delay : x.delay k e <;> simp [came, again, delay]

/-- A call that has retries left. -/
theorem executeFrom_succ : x.executeFrom p (left + 1) k =
    if x.goesOn p k then
      ([.call k, .sleep ((x.wait k).getD 0)] ++ (x.executeFrom p left (k + 1)).1,
        (x.executeFrom p left (k + 1)).2)
    else ([.call k], x.stop (left + 1) k) := by
  by_cases again : x.retried k = true
  · obtain ⟨e, came, retriable⟩ := retried_iff.mp again
    rw [executeFrom_retried came retriable, Exchange.goesOn, wait_eq came retriable]
    cases delay : x.delay k e with
    | none => simp [Exchange.stop, again]
    | some seconds =>
      by_cases taken : seconds ≤ p.longest
      · simp [sleepThen, taken]
      · simp [sleepThen, taken, Exchange.stop, again]
  · have stays : x.goesOn p k ≠ true := fun goes => again (goesOn_retried goes)
    rw [if_neg stays, executeFrom_stop (Bool.eq_false_iff.mpr again)]
    simp [Exchange.stop, again]

/-! ## Waits -/

theorem retryAfter_eq_some {n : Nat} : x.retryAfter k = some n ↔
    ∃ e, x.outcome k = .error (.syrotp e) ∧ e.errorClass = .rateLimit (some n) := by
  unfold Exchange.retryAfter
  split
  · next came =>
    constructor
    · rintro rfl
      exact ⟨_, came, rfl⟩
    · rintro ⟨e, came', limited⟩
      obtain rfl := PyError.syrotp.inj (Except.error.inj (came.symm.trans came'))
      exact ErrorClass.rateLimit.inj limited
  · next other =>
    refine ⟨nofun, ?_⟩
    rintro ⟨⟨errorClass, code, message, status, requestId⟩, came, rfl⟩
    exact absurd came (other _ _ _ _ _)

theorem retried_of_retryAfter {n : Nat} (value : x.retryAfter k = some n) :
    x.retried k = true := by
  obtain ⟨e, came, limited⟩ := retryAfter_eq_some.mp value
  exact retried_iff.mpr ⟨e, came, by simp [isRetriable, limited]⟩

theorem wait_of_retryAfter {n f : Nat} (value : x.retryAfter k = some n)
    (converts : toDouble n = some f) :
    x.wait k = some (max (backoffFor (x.jitter k) (k + 1)) (f : ℚ)) := by
  obtain ⟨e, came, limited⟩ := retryAfter_eq_some.mp value
  rw [wait_eq came (by simp [isRetriable, limited]), Exchange.delay, limited]
  simp [converts]

/-- A retriable call is followed by another one unless its `Retry-After` value is in the way. -/
theorem goesOn_iff (again : x.retried k = true) : x.goesOn p k = true ↔
    ∀ n, x.retryAfter k = some n → ∃ f : Nat, toDouble n = some f ∧ (f : ℚ) ≤ p.longest := by
  have short := (backoffFor_le (x.jitter k) (k + 1)).trans p.cap_le
  obtain ⟨e, came, retriable⟩ := retried_iff.mp again
  have values : ∀ n, x.retryAfter k = some n ↔ e.errorClass = .rateLimit (some n) := by
    intro n
    rw [retryAfter_eq_some, came]
    exact ⟨fun ⟨_, same, limited⟩ => PyError.syrotp.inj (Except.error.inj same) ▸ limited,
      fun limited => ⟨e, rfl, limited⟩⟩
  rw [Exchange.goesOn, wait_eq came retriable, Exchange.delay]
  simp only [values]
  split
  · next n limited =>
    cases converts : toDouble n <;> simp [limited, converts, short]
  · next other => simpa [short] using fun n limited => absurd limited (other n)

theorem goesOn_wait (h : x.goesOn p k = true) : ∃ seconds, x.wait k = some seconds := by
  unfold Exchange.goesOn at h
  cases waits : x.wait k with
  | none => simp [waits] at h
  | some seconds => exact ⟨seconds, rfl⟩

/-! ## The blocking executor -/

/-- The calls of a log, in order. -/
def calls (log : List Effect) : List Nat :=
  log.filterMap fun
    | .call attempt => some attempt
    | .sleep _ => none

theorem mem_calls {log : List Effect} : k ∈ calls log ↔ .call k ∈ log := by
  unfold calls
  rw [List.mem_filterMap]
  constructor
  · rintro ⟨e, here, same⟩
    cases e with
    | call attempt => exact Option.some.inj same ▸ here
    | sleep seconds => exact nomatch same
  · exact fun here => ⟨_, here, rfl⟩

/-- The last call of the blocking executor. -/
abbrev Exchange.last (x : Exchange ρ α) (p : Sleeper) : Nat :=
  lastFrom (x.goesOn p) x.maxRetries.toNat 0

theorem executeFrom_calls : calls (x.executeFrom p left k).1 =
    List.range' k (lastFrom (x.goesOn p) left k - k + 1) := by
  induction left generalizing k with
  | zero => simp [executeFrom_zero, calls, lastFrom]
  | succ left ih =>
    rw [executeFrom_succ, lastFrom]
    split
    · have made : k + 1 ≤ lastFrom (x.goesOn p) left (k + 1) := le_lastFrom
      have count : lastFrom (x.goesOn p) left (k + 1) - k + 1 =
          lastFrom (x.goesOn p) left (k + 1) - (k + 1) + 1 + 1 := by omega
      rw [count, List.range'_succ, ← ih]
      rfl
    · simp [calls]

theorem executeFrom_ending : (x.executeFrom p left k).2 =
    x.stop (k + left - lastFrom (x.goesOn p) left k) (lastFrom (x.goesOn p) left k) := by
  have eq := @rounds_eq (x.goesOn p) left k _ _ (x.executeFrom p)
    (fun left k => ([.call k], x.stop left k))
    (fun k => [.call k, .sleep ((x.wait k).getD 0)])
    (fun k => executeFrom_zero) (fun left k => executeFrom_succ)
  exact congrArg Prod.snd eq

theorem executeFrom_head : ∃ rest, (x.executeFrom p left k).1 = .call k :: rest := by
  unfold Exchange.executeFrom
  exact ⟨_, rfl⟩

/-- Between two calls there is the wait of the first and nothing else. -/
theorem executeFrom_within {j : Nat} (low : k ≤ j) (high : j < lastFrom (x.goesOn p) left k) :
    [.call j, .sleep ((x.wait j).getD 0), .call (j + 1)] <:+: (x.executeFrom p left k).1 := by
  induction left generalizing k with
  | zero => exact absurd high (Nat.not_lt.mpr low)
  | succ left ih =>
    rw [executeFrom_succ]
    rw [lastFrom] at high
    split at high
    · next again =>
      rw [if_pos again]
      rcases Nat.eq_or_lt_of_le low with rfl | later
      · obtain ⟨rest, starts⟩ : ∃ rest, (x.executeFrom p left (k + 1)).1 = .call (k + 1) :: rest :=
          executeFrom_head
        rw [starts]
        exact ⟨[], rest, rfl⟩
      · exact (ih later high).trans (List.suffix_append _ _).isInfix
    · exact absurd high (Nat.not_lt.mpr low)

/-! ## The coroutine -/

theorem resume_goes {seconds : ℚ} (more : (k : ℤ) < x.maxRetries)
    (waits : x.wait k = some seconds) :
    ∃ e, x.resume (.transport k) = ([.sleep seconds], .sleep k e) := by
  unfold Exchange.wait Exchange.outcome at waits
  unfold Exchange.resume
  cases sent : x.transport k with
  | timeoutException message => simp [sent, Arrival.outcome, isRetriable] at waits
  | httpError message =>
    simp only [sent, Arrival.outcome, isRetriable, if_true, Exchange.delay,
      Option.some.injEq] at waits
    simp [sent, more, suspend, waits]
  | exception name => simp [sent, Arrival.outcome] at waits
  | response res =>
    rw [sent] at waits
    split at waits
    · next e came =>
      have came : x.onResponse res = .error (.syrotp e) := came
      rw [Option.ite_none_right_eq_some] at waits
      simp [sent, came, more, waits, suspend]
    · exact nomatch waits

theorem resume_stops (off : ¬((k : ℤ) < x.maxRetries ∧ x.retried k = true)) :
    x.resume (.transport k) = ([], .ended (.of (x.outcome k))) := by
  unfold Exchange.retried at off
  unfold Exchange.outcome at off ⊢
  unfold Exchange.resume
  cases sent : x.transport k with
  | timeoutException message => simp [sent, Arrival.outcome, Ending.of]
  | httpError message =>
    have used : ¬(k : ℤ) < x.maxRetries := by
      simpa [sent, Arrival.outcome, isRetriable] using off
    simp [sent, used, Arrival.outcome, Ending.of]
  | exception name => simp [sent, Arrival.outcome, Ending.of]
  | response res =>
    rw [sent, Arrival.outcome] at off
    cases came : x.onResponse res with
    | ok value => simp [sent, Arrival.outcome, came, Ending.of]
    | error e =>
      rw [came] at off
      cases e with
      | syrotp e => simp [sent, Arrival.outcome, came, Ending.of, off]
      | exception name => simp [sent, Arrival.outcome, came, Ending.of]
      | valueError => simp [sent, Arrival.outcome, came, Ending.of]
      | overflowError => simp [sent, Arrival.outcome, came, Ending.of]
      | recursionError => simp [sent, Arrival.outcome, came, Ending.of]
      | keyError key => simp [sent, Arrival.outcome, came, Ending.of]

theorem iterate_within (within : (k : ℤ) ≤ x.maxRetries) (lastError : SyrotpError) :
    x.iterate k lastError = ([.call k], .transport k) :=
  if_pos (by omega)

/-- A coroutine has one way to go. -/
theorem Exchange.Awaited.unique {c : Suspension α} {log log' : List Effect}
    {ending ending' : Ending α} (h : x.Awaited c log ending) (h' : x.Awaited c log' ending') :
    log = log' ∧ ending = ending' := by
  induction h generalizing log' ending' with
  | ended =>
    cases h' with
    | ended => exact ⟨rfl, rfl⟩
    | resumed open' _ => exact absurd rfl (open' _)
  | resumed open' _ ih =>
    cases h' with
    | ended => exact absurd rfl (open' _)
    | resumed _ rest' =>
      obtain ⟨rfl, rfl⟩ := ih rest'
      exact ⟨rfl, rfl⟩

theorem awaited_stop (off : ¬((k : ℤ) < x.maxRetries ∧ x.retried k = true)) :
    x.Awaited (.transport k) [] (.of (x.outcome k)) := by
  have same := resume_stops off
  have rest : x.Awaited (x.resume (.transport k)).2 [] (.of (x.outcome k)) := by
    rw [same]
    exact .ended
  simpa [same] using Exchange.Awaited.resumed (by simp) rest

/-- The coroutine sleeps and makes the next call. -/
theorem awaited_next {seconds : ℚ} {log : List Effect} {ending : Ending α}
    (more : (k : ℤ) < x.maxRetries) (waits : x.wait k = some seconds)
    (rest : x.Awaited (.transport (k + 1)) log ending) :
    x.Awaited (.transport k) (.sleep seconds :: .call (k + 1) :: log) ending := by
  obtain ⟨e, sleeps⟩ := resume_goes more waits
  have wakes : x.resume (.sleep k e) = ([.call (k + 1)], .transport (k + 1)) :=
    iterate_within (by omega) e
  have called : x.Awaited (.sleep k e) (.call (k + 1) :: log) ending := by
    have rest' : x.Awaited (x.resume (.sleep k e)).2 log ending := by rwa [wakes]
    simpa [wakes] using Exchange.Awaited.resumed (by simp) rest'
  have slept : x.Awaited (x.resume (.transport k)).2 (.call (k + 1) :: log) ending := by
    rwa [sleeps]
  simpa [sleeps] using Exchange.Awaited.resumed (by simp) slept

/-- Where `time.sleep` takes every wait, the coroutine does what the blocking loop does. -/
theorem awaited_loop (count : (k : ℤ) + left = x.maxRetries)
    (taken : ∀ j, k ≤ j → (j : ℤ) < x.maxRetries → (∀ i, k ≤ i → i ≤ j → x.retried i = true) →
      x.goesOn p j = true) :
    ∃ log, (x.executeFrom p left k).1 = .call k :: log ∧
      x.Awaited (.transport k) log (x.executeFrom p left k).2 := by
  induction left generalizing k with
  | zero =>
    rw [executeFrom_zero]
    exact ⟨[], rfl, awaited_stop (by omega)⟩
  | succ left ih =>
    rw [executeFrom_succ]
    by_cases again : x.retried k = true
    · have goes : x.goesOn p k = true :=
        taken k (Nat.le_refl k) (by omega) fun i low high => Nat.le_antisymm high low ▸ again
      obtain ⟨seconds, waits⟩ := goesOn_wait goes
      have later : ∀ j, k + 1 ≤ j → (j : ℤ) < x.maxRetries →
          (∀ i, k + 1 ≤ i → i ≤ j → x.retried i = true) → x.goesOn p j = true := by
        intro j low more all
        refine taken j (by omega) more fun i low' high => ?_
        rcases Nat.eq_or_lt_of_le low' with rfl | low'
        · exact again
        · exact all i low' high
      obtain ⟨log, starts, rest⟩ := ih (by omega) later
      rw [if_pos goes, waits, starts]
      exact ⟨_, rfl, awaited_next (by omega) waits rest⟩
    · have stays : x.goesOn p k ≠ true := fun goes => again (goesOn_retried goes)
      rw [if_neg stays]
      exact ⟨[], rfl, by simpa [Exchange.stop, again] using awaited_stop (by simp [again])⟩

/-! ## The contract -/

/-- What the contract asks of both executors: they do the same; no call follows but after a
retriable one, and there are no more than the limit and one; between a 429 with a `Retry-After`
value and the next call there is a wait of at least that value; and they end with what the last
call came to, which uses up the limit or is not retriable. -/
structure Exchange.Conforms (x : Exchange ρ α) (p : Sleeper) : Prop where
  agree : ∀ log ending, x.Aexecute log ending ↔ x.execute p = (log, ending)
  refused : x.maxRetries < 0 → x.execute p = ([], .raised .valueError)
  bounded : (calls (x.execute p).1).length ≤ (x.maxRetries + 1).toNat
  stops : ∀ k, .call (k + 1) ∈ (x.execute p).1 → x.retried k = true
  waits : ∀ k n, x.retryAfter k = some n → .call (k + 1) ∈ (x.execute p).1 →
    ∃ seconds, (n : ℚ) ≤ seconds ∧
      [.call k, .sleep seconds, .call (k + 1)] <:+: (x.execute p).1
  ends : 0 ≤ x.maxRetries → ∃ last : Nat, calls (x.execute p).1 = List.range (last + 1) ∧
    (last = x.maxRetries ∨ x.retried last = false) ∧ (x.execute p).2 = .of (x.outcome last)

/-- Every `Retry-After` value that a call is to wait for is converted to a float that is no less
and that `time.sleep` takes. -/
def Exchange.Representable (x : Exchange ρ α) (p : Sleeper) : Prop :=
  ∀ k n, Reached x.retried x.maxRetries.toNat k → (k : ℤ) < x.maxRetries →
    x.retryAfter k = some n →
    ∃ f : Nat, toDouble n = some f ∧ n ≤ f ∧ (f : ℚ) ≤ p.longest

theorem execute_neg (h : x.maxRetries < 0) : x.execute p = ([], .raised .valueError) := if_pos h

theorem execute_nonneg (h : 0 ≤ x.maxRetries) :
    x.execute p = x.executeFrom p x.maxRetries.toNat 0 := if_neg (by omega)

theorem Exchange.Representable.goesOn (h : x.Representable p)
    (reached : Reached x.retried x.maxRetries.toNat k) (more : (k : ℤ) < x.maxRetries)
    (again : x.retried k = true) : x.goesOn p k = true := by
  refine (goesOn_iff again).mpr fun n value => ?_
  obtain ⟨f, converts, -, fits⟩ := h k n reached more value
  exact ⟨f, converts, fits⟩

/-- The last call is the first that is not retriable, or uses up the limit. -/
theorem Exchange.Representable.last (h : x.Representable p) (legal : 0 ≤ x.maxRetries) :
    (x.last p : ℤ) = x.maxRetries ∨ x.retried (x.last p) = false := by
  have ends : x.last p = 0 + x.maxRetries.toNat ∨ x.goesOn p (x.last p) = false := lastFrom_ends
  rcases ends with used | off
  · exact .inl (by omega)
  · refine or_iff_not_imp_left.mpr fun more => Bool.eq_false_iff.mpr fun again => ?_
    have within : x.last p ≤ 0 + x.maxRetries.toNat := lastFrom_le
    have reached : Reached x.retried x.maxRetries.toNat (x.last p) :=
      ⟨by omega, fun j before => goesOn_retried (again_of_lt_lastFrom (Nat.zero_le j) before)⟩
    rw [h.goesOn reached (by omega) again] at off
    exact nomatch off

theorem execute_calls (legal : 0 ≤ x.maxRetries) :
    calls (x.execute p).1 = List.range (x.last p + 1) := by
  rw [execute_nonneg legal, executeFrom_calls, List.range_eq_range', Nat.sub_zero]

theorem execute_call (legal : 0 ≤ x.maxRetries) :
    .call k ∈ (x.execute p).1 ↔ k ≤ x.last p := by
  rw [← mem_calls, execute_calls legal, List.mem_range, Nat.lt_succ_iff]

theorem execute_ending (legal : 0 ≤ x.maxRetries) :
    (x.execute p).2 = x.stop (x.maxRetries.toNat - x.last p) (x.last p) := by
  rw [execute_nonneg legal, executeFrom_ending, Nat.zero_add]

/-- Where no call is made twice, the wait after it is one. -/
theorem wait_unique {log : List Effect} {s s' : ℚ} (once : (calls log).Nodup)
    (h : [.call k, .sleep s, .call (k + 1)] <:+: log)
    (h' : [.call k, .sleep s', .call (k + 1)] <:+: log) : s = s' := by
  obtain ⟨before, after, here⟩ := h
  obtain ⟨before', after', here'⟩ := h'
  have split : before ++ .call k :: (.sleep s :: .call (k + 1) :: after) = log := by
    simpa using here
  have split' : before' ++ .call k :: (.sleep s' :: .call (k + 1) :: after') = log := by
    simpa using here'
  have apart : (calls before ++ k :: calls (.sleep s :: .call (k + 1) :: after)).Nodup := by
    rw [← split] at once
    simpa [calls] using once
  have out := (List.nodup_cons.mp (List.nodup_middle.mp apart)).1
  rw [List.mem_append, not_or, mem_calls, mem_calls] at out
  have same := (List.append_cons_inj_of_notMem out.1 out.2).mp (split.trans split'.symm)
  exact Effect.sleep.inj (List.cons.inj same.2.2).1

/-- A call that is followed by another is followed by its wait. -/
theorem execute_within {seconds : ℚ} (legal : 0 ≤ x.maxRetries) (next : k < x.last p) :
    [.call k, .sleep seconds, .call (k + 1)] <:+: (x.execute p).1 ↔ x.wait k = some seconds := by
  have goes : x.goesOn p k = true := again_of_lt_lastFrom (Nat.zero_le k) next
  obtain ⟨own, waits⟩ := goesOn_wait goes
  have here : [.call k, .sleep own, .call (k + 1)] <:+: (x.execute p).1 := by
    rw [execute_nonneg legal]
    simpa [waits] using executeFrom_within (Nat.zero_le k) next
  have once : (calls (x.execute p).1).Nodup := execute_calls legal ▸ List.nodup_range
  constructor
  · intro there
    rw [waits, wait_unique once here there]
  · intro same
    rwa [← Option.some.inj (waits.symm.trans same)]

/-- The coroutine has the effects and the ending of the one way it goes. -/
theorem aexecute_iff {rest : List Effect} {e : Ending α} (h : x.Awaited x.start.2 rest e)
    (log : List Effect) (ending : Ending α) :
    x.Aexecute log ending ↔ (x.start.1 ++ rest, e) = (log, ending) := by
  constructor
  · rintro ⟨rest', other, rfl⟩
    obtain ⟨rfl, rfl⟩ := h.unique other
    rfl
  · intro same
    obtain ⟨rfl, rfl⟩ := Prod.mk.inj same
    exact ⟨rest, h, rfl⟩

theorem Exchange.Representable.agree (h : x.Representable p) (log : List Effect)
    (ending : Ending α) : x.Aexecute log ending ↔ x.execute p = (log, ending) := by
  rcases Int.lt_or_le x.maxRetries 0 with negative | legal
  · have refused : x.start = ([], .ended (.raised .valueError)) := if_pos negative
    have ended : x.Awaited x.start.2 [] (.raised .valueError) := by
      rw [refused]
      exact .ended
    rw [aexecute_iff ended, execute_neg negative, refused, List.nil_append]
  · have started : x.start = ([.call 0], .transport 0) :=
      (if_neg (by omega)).trans (iterate_within (by omega) _)
    obtain ⟨rest, starts, awaited⟩ := @awaited_loop _ _ p x 0 x.maxRetries.toNat
      (by omega) fun j _ more all =>
        h.goesOn ⟨by omega, fun i before => all i (Nat.zero_le i) before.le⟩ more
          (all j (Nat.zero_le j) (Nat.le_refl j))
    have ended : x.Awaited x.start.2 rest (x.executeFrom p x.maxRetries.toNat 0).2 := by
      rwa [started]
    rw [aexecute_iff ended, execute_nonneg legal, started, List.singleton_append, ← starts]

theorem conforms_of_representable (h : x.Representable p) : x.Conforms p := by
  rcases Int.lt_or_le x.maxRetries 0 with negative | legal
  · have refused := execute_neg (p := p) negative
    refine ⟨h.agree, fun _ => refused, ?_, ?_, ?_, fun legal => absurd negative (by omega)⟩ <;>
      simp [refused, calls]
  · have within : x.last p ≤ 0 + x.maxRetries.toNat := lastFrom_le
    have goes : ∀ k, k < x.last p → x.goesOn p k = true :=
      fun k before => again_of_lt_lastFrom (Nat.zero_le k) before
    refine ⟨h.agree, fun negative => absurd negative (by omega), ?_, ?_, ?_, fun _ => ?_⟩
    · rw [execute_calls legal, List.length_range]
      omega
    · intro k called
      exact goesOn_retried (goes k ((execute_call legal).mp called))
    · intro k n value called
      have next : k < x.last p := (execute_call legal).mp called
      obtain ⟨f, converts, least, -⟩ := h k n
        ⟨by omega, fun j before => goesOn_retried (goes j (by omega))⟩ (by omega) value
      refine ⟨_, ?_, (execute_within legal next).mpr (wait_of_retryAfter value converts)⟩
      exact (Nat.cast_le.mpr least).trans (le_max_right ..)
    · have ends := h.last legal
      refine ⟨x.last p, execute_calls legal, ends, ?_⟩
      rw [execute_ending legal]
      refine if_neg fun more => ?_
      rcases ends with used | off
      · omega
      · exact absurd more.2 (by simp [off])

theorem representable_of_conforms (h : x.Conforms p) : x.Representable p := by
  intro k n reached more value
  have legal : 0 ≤ x.maxRetries := by omega
  have next : k < x.last p := by
    obtain ⟨last, made, -, ending⟩ := h.ends legal
    have same : last = x.last p := by
      simpa [execute_calls legal] using (congrArg List.length made).symm
    rw [execute_ending legal, same] at ending
    by_contra early
    have again : x.retried (x.last p) = true := by
      rcases Nat.lt_or_eq_of_le (Nat.not_lt.mp early) with before | at'
      · exact reached.2 _ before
      · exact at' ▸ retried_of_retryAfter value
    rw [Exchange.stop, if_pos ⟨by omega, again⟩] at ending
    obtain ⟨e, came, -⟩ := retried_iff.mp again
    simp [came, Ending.of] at ending
  have goes : x.goesOn p k = true := again_of_lt_lastFrom (Nat.zero_le k) next
  obtain ⟨f, converts, fits⟩ := (goesOn_iff (goesOn_retried goes)).mp goes n value
  refine ⟨f, converts, ?_, fits⟩
  obtain ⟨seconds, least, there⟩ := h.waits k n value ((execute_call legal).mpr next)
  have waits := (execute_within legal next).mp there
  rw [wait_of_retryAfter value converts, Option.some.injEq] at waits
  rcases Nat.lt_or_ge n (2 ^ 53) with small | large
  · rw [toDouble_exact small] at converts
    exact (Option.some.inj converts).le
  · have short := backoffFor_le (x.jitter k) (k + 1)
    rcases le_max_iff.mp (waits ▸ least) with less | least
    · have : (n : ℚ) ≤ 4 := less.trans short
      have : n ≤ 4 := by exact_mod_cast this
      omega
    · exact_mod_cast least

/-- The executors keep to the contract exactly if every `Retry-After` value that is to be waited
for is representable as a wait. -/
theorem conforms_iff : x.Conforms p ↔ x.Representable p :=
  ⟨representable_of_conforms, conforms_of_representable⟩

/-! ## With the responses of the client -/

def Sent.arrival : Sent → Arrival Response
  | .response res => .response res
  | .timeoutException message => .timeoutException message
  | .httpError message => .httpError message

/-- An execution whose `on_response` keeps its promise to raise nothing but a `SyrotpError`. -/
def exchangeOf (maxRetries : ℤ) (transport : Nat → Sent)
    (onResponse : Response → Except SyrotpError α) (jitter : Nat → ℚ → ℚ → ℚ) :
    Exchange Response α where
  maxRetries := maxRetries
  transport k := (transport k).arrival
  onResponse res := (onResponse res).mapError .syrotp
  jitter := jitter

theorem exchangeOf_outcome (maxRetries : ℤ) (transport : Nat → Sent)
    (onResponse : Response → Except SyrotpError α) (jitter : Nat → ℚ → ℚ → ℚ) :
    (exchangeOf maxRetries transport onResponse jitter).outcome k =
      (tried onResponse (transport k)).mapError .syrotp := by
  change (transport k).arrival.outcome _ = _
  cases transport k <;> rfl

theorem of_mapError_ne (r : Except SyrotpError α) :
    Ending.of (r.mapError PyError.syrotp) ≠ .raised .overflowError := by
  cases r <;> simp [Except.mapError, Ending.of]

/-- A 429 whose `Retry-After` value has 310 digits, and then a 200. -/
def oversized : Exchange Response Document :=
  exchangeOf 1
    (fun k => .response (if k = 0 then ⟨429, some (10 ^ 309), .empty⟩ else ⟨200, none, .empty⟩))
    onResponse fun _ low _ => low

theorem oversized_raises : (oversized.execute nanosecondClock).2 = .raised .overflowError := by
  decide +kernel

theorem oversized_not_conforms : ¬oversized.Conforms nanosecondClock := by
  intro h
  obtain ⟨last, -, -, ending⟩ := h.ends (by decide)
  rw [oversized_raises, oversized, exchangeOf_outcome] at ending
  exact of_mapError_ne _ ending.symm

theorem errorFromResponse_class (res : Response) :
    (errorFromResponse res).errorClass = res.errorClass := by
  unfold errorFromResponse
  dsimp only
  split <;> rfl

/-- An error of `on_response` of the client is retriable for the statuses 429 and 5xx alone, and a
429 has the value of its header. -/
theorem onResponse_class {res : Response} {e : SyrotpError} (h : onResponse res = .error e) :
    (isRetriable e = true ↔ res.status = 429 ∨ 500 ≤ res.status ∧ res.status < 600) ∧
      ∀ value, e.errorClass = .rateLimit value ↔ res.status = 429 ∧ value = res.retryAfter := by
  unfold onResponse at h
  split at h
  · next success =>
    have apart : res.status ≠ 429 := by omega
    split at h <;> cases h <;> simp [isRetriable, apart] <;> omega
  · obtain rfl := Except.error.inj h
    rw [isRetriable, errorFromResponse_class, Response.errorClass]
    repeat' split
    all_goals grind

section Sleepless

variable (maxRetries : ℤ) (transport : Nat → Sent) (onResponse : Response → Except SyrotpError α)
  (jitter : Nat → ℚ → ℚ → ℚ)

theorem retryLoop_eq :
    let x := exchangeOf maxRetries transport onResponse jitter
    retryLoop transport onResponse left k =
      (tried onResponse (transport (lastFrom x.retried left k)),
        lastFrom x.retried left k + 1) := by
  intro x
  induction left generalizing k with
  | zero => rfl
  | succ left ih =>
    rw [retryLoop, lastFrom]
    have same : x.outcome k = (tried onResponse (transport k)).mapError .syrotp :=
      exchangeOf_outcome ..
    cases came : tried onResponse (transport k) with
    | ok value =>
      have off : x.retried k = false := by simp [Exchange.retried, same, came, Except.mapError]
      simp [off, came]
    | error e =>
      have again : x.retried k = isRetriable e := by
        simp [Exchange.retried, same, came, Except.mapError]
      simp only [again, ih]
      split
      · rfl
      · rw [came]

/-- Without its sleeps the blocking executor is `executeWithRetries`. -/
theorem execute_outcome (legal : 0 ≤ maxRetries)
    (h : (exchangeOf maxRetries transport onResponse jitter).Representable p) :
    let sleepless := executeWithRetries transport maxRetries.toNat onResponse
    let log := (exchangeOf maxRetries transport onResponse jitter).execute p
    log.2 = .of (sleepless.1.mapError .syrotp) ∧ (calls log.1).length = sleepless.2 := by
  intro sleepless log
  have conforms := conforms_of_representable h
  obtain ⟨last, made, ends, ending⟩ := conforms.ends legal
  have reached : Reached (exchangeOf maxRetries transport onResponse jitter).retried
      maxRetries.toNat last := by
    refine ⟨?_, fun j before => ?_⟩
    · have bounded := conforms.bounded
      rw [made, List.length_range] at bounded
      exact Nat.le_of_succ_le_succ (bounded.trans_eq (by simp [exchangeOf]; omega))
    · refine conforms.stops j (mem_calls.mp ?_)
      rw [made, List.mem_range]
      omega
  have same := lastFrom_eq reached (ends.imp_left fun used => by
    have : (last : ℤ) = maxRetries := used
    omega)
  have eq : sleepless = (tried onResponse (transport last), last + 1) := by
    rw [← same]
    exact retryLoop_eq ..
  rw [eq, ← exchangeOf_outcome maxRetries transport onResponse jitter]
  exact ⟨ending, by rw [made, List.length_range]⟩

end Sleepless

end Syrotp.Sdk
