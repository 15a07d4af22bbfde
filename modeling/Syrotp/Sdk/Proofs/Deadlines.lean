import Syrotp.Misc.Rounds
import Syrotp.Sdk.Kotlin

/-!
# Deadlines of the Kotlin SDK

The executor takes a `SocketTimeoutException` for the deadline and every other `IOException` of the
call for a network error, and it catches none while a body is read. The deadline of the client is
`callTimeout`, though, whose exception is not of that class. So failures are classified as the
contract has it exactly where the two notions agree and every body can be read.
-/

namespace Syrotp.Sdk.Kotlin

variable {parser : Parser} {transport : Nat → Opened} {maxRetries left k : Nat}

/-- The I/O failure of a call, at its opening or at its body. -/
def Opened.failure? : Opened → Option IoException
  | .failure e => some e
  | .response ⟨_, _, .error e⟩ => some e
  | .response ⟨_, _, .ok _⟩ => none

/-- What the contract asks of an execution: a call that ends at its deadline is the last and gives
a timeout error; one with another failure is followed by a call while retries are left, and gives a
network error when there are none; and nothing but a `SyrotpError` is thrown. -/
structure Classifies (parser : Parser) (transport : Nat → Opened) (maxRetries : Nat) : Prop where
  deadline : ∀ k e, k < (execute parser transport maxRetries).2 →
    (transport k).failure? = some e → e.atDeadline = true →
    (execute parser transport maxRetries).2 = k + 1 ∧
      ∃ own, (execute parser transport maxRetries).1 = .error (.syrotp own) ∧
        own.errorClass = .timeout
  retried : ∀ k e, k < (execute parser transport maxRetries).2 →
    (transport k).failure? = some e → e.atDeadline = false → k < maxRetries →
    k + 1 < (execute parser transport maxRetries).2
  network : ∀ e, (execute parser transport maxRetries).2 = maxRetries + 1 →
    (transport maxRetries).failure? = some e → e.atDeadline = false →
    ∃ own, (execute parser transport maxRetries).1 = .error (.syrotp own) ∧
      own.errorClass = .network
  bounded : (execute parser transport maxRetries).2 ≤ maxRetries + 1
  sealed' : ∀ e, (execute parser transport maxRetries).1 ≠ .error (.io e)

/-- After a call like this the executor makes another, if retries are left. -/
def Opened.retried : Opened → Bool
  | .failure e => !e.isSocketTimeout
  | .response ⟨code, _, .ok _⟩ => code = 429 || (500 ≤ code && code ≤ 599 : Bool)
  | .response ⟨_, _, .error _⟩ => false

/-- A failure at the opening is a `SocketTimeoutException` exactly at the deadline, and the body of
a response can be read. -/
def Opened.Classified : Opened → Prop
  | .failure e => e.isSocketTimeout = e.atDeadline
  | .response res => res.body.isOk

/-! ## The loop -/

/-- What a call comes to. -/
def Opened.outcome (parser : Parser) : Opened → Except Thrown (List (Text × JsonElement))
  | .failure (.socketTimeout _ message) =>
    .error (.syrotp ⟨.timeout, text "timeout", message.getD (text "request timed out"), 0, none⟩)
  | .failure e =>
    .error (.syrotp ⟨.network, text "network_error", e.message.getD (text "network error"), 0,
      none⟩)
  | .response res =>
    if res.isSuccessful then parse parser res else .error (errorFromResponse parser res)

theorem parse_not_retried {res : Response} {e : Error}
    (h : parse parser res = .error (.syrotp e)) : isRetriable e = false := by
  unfold parse at h
  split at h
  · cases h
  · dsimp only at h
    split at h
    · cases h
      rfl
    · split at h
      · cases h
        rfl
      · cases h
      · cases h
        rfl

/-- A response is retried for an error of these statuses, once its body is read. -/
theorem retried_response (res : Response) :
    (Opened.response res).retried = true ↔
      ∃ e, (Opened.response res).outcome parser = .error (.syrotp e) ∧ isRetriable e = true := by
  rcases res with ⟨code, retryAfter, body⟩
  by_cases success : (⟨code, retryAfter, body⟩ : Response).isSuccessful
  · have low : 200 ≤ code := success.1
    have high : code < 300 := success.2
    refine iff_of_false ?_ ?_
    · cases body <;> (simp [Opened.retried]; try omega)
    · rintro ⟨e, came, retriable⟩
      rw [Opened.outcome, if_pos success] at came
      exact absurd retriable (by simp [parse_not_retried came])
  · rw [Opened.outcome, if_neg success]
    cases body with
    | error e => simp [Opened.retried, errorFromResponse]
    | ok body =>
      simp only [Opened.retried, errorFromResponse, Except.error.injEq, Thrown.syrotp.injEq,
        exists_eq_left', isRetriable, Response.errorClass]
      repeat' split
      all_goals grind

theorem executeFrom_zero :
    executeFrom parser transport 0 k = ((transport k).outcome parser, k + 1) := by
  unfold executeFrom
  cases transport k with
  | failure e => cases e <;> rfl
  | response res =>
    dsimp only [Opened.outcome]
    rcases (if res.isSuccessful then parse parser res
      else .error (errorFromResponse parser res)) with ((e | e) | members) <;> rfl

/-- A call is followed by another exactly after these errors. -/
theorem executeFrom_succ : executeFrom parser transport (left + 1) k =
    if (transport k).retried then executeFrom parser transport left (k + 1)
    else ((transport k).outcome parser, k + 1) := by
  conv_lhs => unfold executeFrom
  cases came : transport k with
  | failure e => cases e <;> rfl
  | response res =>
    have retried := @retried_response parser res
    unfold Opened.outcome at retried ⊢
    dsimp only at retried ⊢
    generalize (if res.isSuccessful then parse parser res
      else .error (errorFromResponse parser res)) = result at retried ⊢
    rcases result with ((e | e) | members)
    · have same : (Opened.response res).retried = isRetriable e := by
        rw [Bool.eq_iff_iff, retried]
        simp
      rw [same]
    · have off : (Opened.response res).retried = false := by simpa using retried
      simp [off]
    · have off : (Opened.response res).retried = false := by simpa using retried
      simp [off]

/-- The calls that are made, and what the last one comes to. -/
theorem execute_eq : execute parser transport maxRetries =
    ((transport (lastFrom (fun k => (transport k).retried) maxRetries 0)).outcome parser,
      lastFrom (fun k => (transport k).retried) maxRetries 0 + 1) := by
  have loop : ∀ left k, executeFrom parser transport left k =
      ((transport (lastFrom (fun k => (transport k).retried) left k)).outcome parser,
        lastFrom (fun k => (transport k).retried) left k + 1) := by
    intro left
    induction left with
    | zero => exact fun k => executeFrom_zero
    | succ left ih =>
      intro k
      rw [executeFrom_succ, lastFrom]
      split
      · exact ih (k + 1)
      · rfl
  exact loop maxRetries 0

/-! ## The contract -/

theorem called_iff : k < (execute parser transport maxRetries).2 ↔
    Reached (fun k => (transport k).retried) maxRetries k := by
  rw [execute_eq, reached_iff, Nat.lt_succ_iff]

/-- A call that is made and has none after it gives the result. -/
theorem execute_last (made : Reached (fun k => (transport k).retried) maxRetries k)
    (last : k = maxRetries ∨ (transport k).retried = false) :
    execute parser transport maxRetries = ((transport k).outcome parser, k + 1) := by
  rw [execute_eq, lastFrom_eq made last]

theorem bounded : (execute parser transport maxRetries).2 ≤ maxRetries + 1 := by
  rw [execute_eq]
  have : lastFrom (fun k => (transport k).retried) maxRetries 0 ≤ 0 + maxRetries := lastFrom_le
  omega

/-- The last call is one that is made. -/
theorem execute_result : ∃ k, Reached (fun k => (transport k).retried) maxRetries k ∧
    execute parser transport maxRetries = ((transport k).outcome parser, k + 1) :=
  ⟨_, reached_iff.mpr (Nat.le_refl _), execute_eq⟩

theorem outcome_timeout {e : IoException} (h : e.isSocketTimeout = true) :
    ∃ own, (Opened.failure e).outcome parser = .error (.syrotp own) ∧
      own.errorClass = .timeout := by
  cases e with
  | callTimeout message => exact nomatch h
  | socketTimeout deadlinePassed message => exact ⟨_, rfl, rfl⟩
  | other message => exact nomatch h

theorem outcome_network {e : IoException} (h : e.isSocketTimeout = false) :
    ∃ own, (Opened.failure e).outcome parser = .error (.syrotp own) ∧
      own.errorClass = .network := by
  cases e with
  | callTimeout message => exact ⟨_, rfl, rfl⟩
  | socketTimeout deadlinePassed message => exact nomatch h
  | other message => exact ⟨_, rfl, rfl⟩

theorem parse_io {res : Response} {e : IoException} (h : parse parser res = .error (.io e)) :
    res.body = .error e := by
  unfold parse at h
  split at h
  · next failed => exact failed.trans (by cases h; rfl)
  · dsimp only at h
    split at h
    · cases h
    · split at h <;> cases h

theorem errorFromResponse_io {res : Response} {e : IoException}
    (h : errorFromResponse parser res = .io e) : res.body = .error e := by
  unfold errorFromResponse at h
  split at h
  · next failed => exact failed.trans (by cases h; rfl)
  · cases h

/-- An `IOException` gets out only where a body cannot be read. -/
theorem outcome_io {a : Opened} {e : IoException} (h : a.outcome parser = .error (.io e)) :
    ¬a.Classified := by
  cases a with
  | failure e' => cases e' <;> cases h
  | response res =>
    have failed : res.body = .error e := by
      unfold Opened.outcome at h
      dsimp only at h
      split at h
      · exact parse_io h
      · exact errorFromResponse_io (Except.error.inj h)
    simp [Opened.Classified, failed, Except.isOk, Except.toBool]

theorem outcome_failed {code : Nat} {retryAfter : Option Nat} {e : IoException} :
    (Opened.response ⟨code, retryAfter, .error e⟩).outcome parser = .error (.io e) := by
  unfold Opened.outcome
  dsimp only
  split <;> rfl

theorem classified_failure {a : Opened} {e : IoException} (classified : a.Classified)
    (failure : a.failure? = some e) : a = .failure e ∧ e.isSocketTimeout = e.atDeadline := by
  cases a with
  | failure e' =>
    obtain rfl := Option.some.inj failure
    exact ⟨rfl, classified⟩
  | response res =>
    rcases res with ⟨code, retryAfter, e' | body⟩
    · exact nomatch classified
    · exact nomatch failure

theorem classifies_of_classified
    (h : ∀ k, Reached (fun k => (transport k).retried) maxRetries k → (transport k).Classified) :
    Classifies parser transport maxRetries where
  deadline k e called failure deadline := by
    have reached := called_iff.mp called
    obtain ⟨opened, same⟩ := classified_failure (h k reached) failure
    have socket : e.isSocketTimeout = true := same.trans deadline
    have eq : execute parser transport maxRetries = ((transport k).outcome parser, k + 1) :=
      execute_last reached (.inr (by simp [opened, Opened.retried, socket]))
    rw [eq, opened]
    exact ⟨rfl, outcome_timeout socket⟩
  retried k e called failure other more := by
    have reached := called_iff.mp called
    obtain ⟨opened, same⟩ := classified_failure (h k reached) failure
    exact called_iff.mpr (reached.succ (by simp [opened, Opened.retried, same.trans other]) more)
  network e used failure other := by
    have called : maxRetries < (execute parser transport maxRetries).2 := by omega
    have reached := called_iff.mp called
    obtain ⟨opened, same⟩ := classified_failure (h maxRetries reached) failure
    rw [execute_last reached (.inl rfl), opened]
    exact outcome_network (same.trans other)
  bounded := bounded
  sealed' e escaped := by
    obtain ⟨k, reached, eq⟩ := @execute_result parser transport maxRetries
    rw [eq] at escaped
    exact outcome_io escaped (h k reached)

/-- A timeout of the socket ends the attempts, so it has to be the deadline. -/
theorem Classifies.atDeadline (h : Classifies parser transport maxRetries) {e : IoException}
    (reached : Reached (fun k => (transport k).retried) maxRetries k)
    (opened : transport k = .failure e) (socket : e.isSocketTimeout = true) :
    e.atDeadline = true := by
  by_contra early
  have other : e.atDeadline = false := by simpa using early
  have failure : (transport k).failure? = some e := by rw [opened]; rfl
  have ends : execute parser transport maxRetries = ((transport k).outcome parser, k + 1) :=
    execute_last reached (.inr (by simp [opened, Opened.retried, socket]))
  rcases Nat.lt_or_eq_of_le reached.1 with more | rfl
  · have next := h.retried k e (called_iff.mpr reached) failure other more
    rw [ends] at next
    exact absurd next (Nat.lt_irrefl _)
  · obtain ⟨own, result, network⟩ := h.network e (by rw [ends]) failure other
    obtain ⟨own', result', timeout⟩ := @outcome_timeout parser e socket
    rw [ends, opened, result', Except.error.injEq, Thrown.syrotp.injEq] at result
    rw [← result, timeout] at network
    exact nomatch network

/-- Any other failure is tried again, so it has to be before the deadline. -/
theorem Classifies.beforeDeadline (h : Classifies parser transport maxRetries) {e : IoException}
    (reached : Reached (fun k => (transport k).retried) maxRetries k)
    (opened : transport k = .failure e) (socket : e.isSocketTimeout = false) :
    e.atDeadline = false := by
  by_contra late
  have deadline : e.atDeadline = true := by simpa using late
  have failure : (transport k).failure? = some e := by rw [opened]; rfl
  obtain ⟨ends, own, result, timeout⟩ := h.deadline k e (called_iff.mpr reached) failure deadline
  rcases Nat.lt_or_eq_of_le reached.1 with more | rfl
  · have again : (transport k).retried = true := by simp [opened, Opened.retried, socket]
    have next : k + 1 < (execute parser transport maxRetries).2 :=
      called_iff.mpr (reached.succ again more)
    omega
  · obtain ⟨own', result', network⟩ := @outcome_network parser e socket
    rw [execute_last reached (.inl rfl), opened, result', Except.error.injEq,
      Thrown.syrotp.injEq] at result
    rw [← result, network] at timeout
    exact nomatch timeout

theorem classified_of_classifies (h : Classifies parser transport maxRetries) (k : Nat)
    (reached : Reached (fun k => (transport k).retried) maxRetries k) :
    (transport k).Classified := by
  cases opened : transport k with
  | failure e =>
    change e.isSocketTimeout = e.atDeadline
    cases socket : e.isSocketTimeout with
    | true => exact (h.atDeadline reached opened socket).symm
    | false => exact (h.beforeDeadline reached opened socket).symm
  | response res =>
    rcases res with ⟨code, retryAfter, e | body⟩
    · have ends : execute parser transport maxRetries = ((transport k).outcome parser, k + 1) :=
        execute_last reached (.inr (by rw [opened]; rfl))
      rw [opened, outcome_failed] at ends
      exact absurd (congrArg Prod.fst ends) (h.sealed' e)
    · rfl

/-- Failures are classified as the contract has it exactly if those of the calls that are made are
timeouts of the socket at the deadline and nowhere else, and no body fails. -/
theorem classifies_iff : Classifies parser transport maxRetries ↔
    ∀ k, Reached (fun k => (transport k).retried) maxRetries k → (transport k).Classified :=
  ⟨classified_of_classifies, classifies_of_classified⟩

/-- The `callTimeout` of the client is taken for a network error, and the call is made again. -/
theorem callTimeout_not_classifies :
    ¬Classifies (fun _ => none) (fun _ => .failure (.callTimeout (some (text "timeout")))) 2 := by
  intro h
  exact absurd (h.deadline 0 _ (by decide) rfl rfl).1 (by decide)

end Syrotp.Sdk.Kotlin
