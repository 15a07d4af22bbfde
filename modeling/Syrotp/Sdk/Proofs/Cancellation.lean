import Syrotp.Misc.Rounds
import Syrotp.Sdk.Swift

/-!
# Cancellation of the Swift SDK

The executor passes on a cancellation that the transport reports as `URLError.cancelled`; a sleep
that is cancelled it only cuts short, and a `CancellationError` of the transport it takes for a
network error. So it is for the transport to start nothing in a task that is cancelled and to report
it as `URLError.cancelled`. The transport of the client does both.
-/

namespace Syrotp.Sdk.Swift

variable {α : Type*} {x : Execution α} {session : UrlSession} {left k : Nat}

/-- A cancellation ends the execution: no request is started after it, and `CancellationError` is
thrown where the transport reports it and where it comes during a sleep or before all else. -/
structure Execution.Honours (x : Execution α) : Prop where
  stops : ∀ m, x.cancelledAt = some m → ∀ j, .request j ∈ x.execute.1 → m.precedes j = false
  start : x.cancelledAt = some .start → x.execute.2 = .error .cancellation
  request : ∀ k e, .request k ∈ x.execute.1 → (x.exchange k).fetched = .thrown e →
    e.isCancellation = true →
    x.execute.2 = .error .cancellation ∧ ∀ j, .request j ∈ x.execute.1 → j ≤ k
  sleep : ∀ k, .sleep k ∈ x.execute.1 → x.cancelledAt = some (.sleep k) →
    x.execute.2 = .error .cancellation

/-- After what attempt `k` gave there is a sleep and another attempt, if retries are left. -/
def Execution.retried (x : Execution α) (k : Nat) : Bool :=
  match (x.exchange k).fetched with
  | .thrown (.timedOut _) | .thrown (.cancelled _) => false
  | .thrown (.cancellationError _) | .thrown (.other _) => true
  | .response res =>
    res.statusCode = 429 || (500 ≤ res.statusCode && res.statusCode ≤ 599 : Bool)

/-- How an execution ends with attempt `k`. -/
def Execution.ending (x : Execution α) (k : Nat) : Except Thrown α :=
  match (x.exchange k).fetched with
  | .thrown (.timedOut description) =>
    .error (.syrotp ⟨.timeout, text "timeout", description, 0, none⟩)
  | .thrown (.cancelled _) => .error .cancellation
  | .thrown e =>
    .error (.syrotp ⟨.network, text "network_error", e.localizedDescription, 0, none⟩)
  | .response res =>
    if 200 ≤ res.statusCode ∧ res.statusCode < 300 then (x.parse res).mapError .syrotp
    else .error (.syrotp (errorFromResponse x.parser res))

/-- The request of attempt `k`, if it starts one. -/
def Execution.requests (x : Execution α) (k : Nat) : List Event :=
  if (x.exchange k).starts then [.request k] else []

theorem errorFromResponse_class (parser : Parser) (res : Response) :
    (errorFromResponse parser res).errorClass = res.errorClass := by
  unfold errorFromResponse
  dsimp only
  split
  · rfl
  · split
    · rfl
    · split <;> rfl

/-- A failure is retriable for the statuses 429 and 5xx. -/
theorem isRetriable_errorFromResponse (parser : Parser) (res : Response) :
    isRetriable (errorFromResponse parser res) =
      (res.statusCode = 429 || (500 ≤ res.statusCode && res.statusCode ≤ 599 : Bool)) := by
  rw [isRetriable, errorFromResponse_class, Response.errorClass]
  repeat' split
  all_goals grind

theorem executeFrom_zero : x.executeFrom 0 k = (x.requests k, x.ending k) := by
  unfold Execution.executeFrom Execution.ending Execution.requests
  cases (x.exchange k).fetched with
  | thrown e => cases e <;> simp
  | response res =>
    by_cases success : 200 ≤ res.statusCode ∧ res.statusCode < 300
    · simp [success]
    · simp [success]

theorem executeFrom_succ : x.executeFrom (left + 1) k =
    if x.retried k then
      (x.requests k ++ [.sleep k] ++ (x.executeFrom left (k + 1)).1,
        (x.executeFrom left (k + 1)).2)
    else (x.requests k, x.ending k) := by
  conv_lhs => unfold Execution.executeFrom
  unfold Execution.requests
  cases came : (x.exchange k).fetched with
  | thrown e => cases e <;> simp [Execution.retried, Execution.ending, came]
  | response res =>
    by_cases success : 200 ≤ res.statusCode ∧ res.statusCode < 300
    · have off : x.retried k = false := by
        simp [Execution.retried, came]
        omega
      simp [Execution.ending, came, success, off]
    · have same : x.retried k = isRetriable (errorFromResponse x.parser res) := by
        rw [isRetriable_errorFromResponse, Execution.retried, came]
      cases again : isRetriable (errorFromResponse x.parser res) with
      | true => simp [success, again, same]
      | false => simp [Execution.ending, came, success, again, same]

/-- The requests and sleeps of an execution. -/
theorem execute_eq : x.execute =
    ((List.range (lastFrom x.retried x.maxRetries 0)).flatMap
        (fun k => x.requests k ++ [.sleep k]) ++
      x.requests (lastFrom x.retried x.maxRetries 0),
      x.ending (lastFrom x.retried x.maxRetries 0)) := by
  have eq := @rounds_eq x.retried x.maxRetries 0 _ _ x.executeFrom
    (fun _ k => (x.requests k, x.ending k)) (fun k => x.requests k ++ [.sleep k])
    (fun k => executeFrom_zero) (fun left k => executeFrom_succ)
  rw [Execution.execute, eq, List.range_eq_range']
  rfl

theorem mem_requests {e : Event} {k : Nat} :
    e ∈ x.requests k ↔ e = .request k ∧ (x.exchange k).starts = true := by
  unfold Execution.requests
  split <;> simp [*]

theorem request_iff : .request k ∈ x.execute.1 ↔
    Reached x.retried x.maxRetries k ∧ (x.exchange k).starts = true := by
  rw [execute_eq, reached_iff]
  simp only [List.mem_append, List.mem_flatMap, List.mem_range, mem_requests, Event.request.injEq,
    List.mem_singleton, reduceCtorEq, or_false]
  constructor
  · rintro (⟨j, before, rfl, starts⟩ | ⟨rfl, starts⟩)
    · exact ⟨Nat.le_of_lt before, starts⟩
    · exact ⟨Nat.le_refl _, starts⟩
  · rintro ⟨made, starts⟩
    rcases Nat.lt_or_eq_of_le made with before | last
    · exact .inl ⟨k, before, rfl, starts⟩
    · exact .inr ⟨last, last ▸ starts⟩

theorem sleep_iff : .sleep k ∈ x.execute.1 ↔ Reached x.retried x.maxRetries (k + 1) := by
  rw [execute_eq, reached_iff]
  simp only [List.mem_append, List.mem_flatMap, List.mem_range, mem_requests, reduceCtorEq,
    false_and, List.mem_singleton, Event.sleep.injEq, false_or, or_false, exists_eq_right']
  exact Nat.lt_iff_add_one_le

theorem execute_last (made : Reached x.retried x.maxRetries k)
    (last : k = x.maxRetries ∨ x.retried k = false) : x.execute.2 = x.ending k := by
  rw [execute_eq, lastFrom_eq made last]

/-- No request is made after the last. -/
theorem le_last {j : Nat} (made : Reached x.retried x.maxRetries k)
    (last : k = x.maxRetries ∨ x.retried k = false) (here : .request j ∈ x.execute.1) : j ≤ k := by
  obtain ⟨reached, -⟩ := request_iff.mp here
  rwa [reached_iff, lastFrom_eq made last] at reached

/-! ## Cancellation -/

/-- The transport starts nothing in a task that is cancelled, and reports a cancellation as
`URLError.cancelled`. -/
structure Execution.Prompt (x : Execution α) : Prop where
  cancelled : ∀ k, ∃ description, x.transport k true = ⟨false, .thrown (.cancelled description)⟩
  own : ∀ k cancelled description,
    (x.transport k cancelled).fetched ≠ .thrown (.cancellationError description)

/-- `URLError.cancelled` is the end. -/
theorem ends_cancelled {description : Text} (made : Reached x.retried x.maxRetries k)
    (reported : (x.exchange k).fetched = .thrown (.cancelled description)) :
    x.execute.2 = .error .cancellation ∧ ∀ j, .request j ∈ x.execute.1 → j ≤ k := by
  have last : x.retried k = false := by simp [Execution.retried, reported]
  rw [execute_last made (.inr last)]
  exact ⟨by simp [Execution.ending, reported], fun j => le_last made (.inr last)⟩

theorem Execution.Prompt.exchange (h : x.Prompt) (off : x.isCancelled k = true) :
    ∃ description, x.exchange k = ⟨false, .thrown (.cancelled description)⟩ := by
  rw [Execution.exchange, off]
  exact h.cancelled k

/-- An attempt in a task that is cancelled is the end. -/
theorem Execution.Prompt.ends (h : x.Prompt) (made : Reached x.retried x.maxRetries k)
    (off : x.isCancelled k = true) : x.execute.2 = .error .cancellation := by
  obtain ⟨description, same⟩ := h.exchange off
  exact (ends_cancelled made (by rw [same])).1

theorem honours_of_prompt (h : x.Prompt) : x.Honours where
  stops m at' j here := by
    obtain ⟨-, starts⟩ := request_iff.mp here
    by_contra before
    have off : x.isCancelled j = true := by
      simpa [Execution.isCancelled, at'] using before
    obtain ⟨description, same⟩ := h.exchange off
    simp [same] at starts
  start at' := h.ends ⟨Nat.zero_le _, fun _ before => absurd before (Nat.not_lt_zero _)⟩
    (by simp [Execution.isCancelled, at', Moment.precedes])
  request k e here thrown cancelled := by
    obtain ⟨made, -⟩ := request_iff.mp here
    cases e with
    | cancelled description => exact ends_cancelled made thrown
    | cancellationError description => exact absurd thrown (h.own k _ description)
    | timedOut description => exact nomatch cancelled
    | other description => exact nomatch cancelled
  sleep k here at' := h.ends (sleep_iff.mp here)
    (by simp [Execution.isCancelled, at', Moment.precedes])

theorem transport_prompt (documented : session.Cancels) (own : x.transport = session.transport) :
    x.Prompt where
  cancelled k := by
    obtain ⟨description, same⟩ := documented k
    exact ⟨description, by
      simp [own, UrlSession.transport, UrlSession.syrotpData, TaskBox.onCancel, same]⟩
  own k cancelled description := by
    rw [own]
    unfold UrlSession.transport
    dsimp only
    split <;> simp

/-- With the transport of the client a cancellation is honoured, whenever it comes. -/
theorem cancellation_honoured (documented : session.Cancels)
    (own : x.transport = session.transport) : x.Honours :=
  honours_of_prompt (transport_prompt documented own)

/-- A session that answers 503 to every request. -/
def overloaded : UrlSession where
  resumed _ := .http ⟨503, none, []⟩
  unresumed _ := .cancelled (text "cancelled")

/-- The client with a retry, and a task that is cancelled in the sleep after the first request. -/
def asleep : Execution Unit where
  maxRetries := 1
  transport := overloaded.transport
  parse _ := .ok ()
  parser _ := none
  cancelledAt := some (.sleep 0)

/-- The second request is not started. -/
theorem asleep_cancelled : asleep.Honours ∧
    asleep.execute = ([.request 0, .sleep 0], .error .cancellation) :=
  ⟨@cancellation_honoured _ asleep overloaded (fun _ => ⟨text "cancelled", rfl⟩) rfl, by decide⟩

/-- A task that is cancelled during its only request, with a transport that throws a
`CancellationError`. -/
def misreported : Execution Unit where
  maxRetries := 0
  transport _ _ := ⟨true, .thrown (.cancellationError (text "cancelled"))⟩
  parse _ := .ok ()
  parser _ := none
  cancelledAt := some (.request 0)

/-- A `CancellationError` of the transport ends in a network error. -/
theorem misreported_not_honours : ¬misreported.Honours := by
  intro h
  have made : .request 0 ∈ misreported.execute.1 := by decide
  exact nomatch (h.request 0 _ made rfl rfl).1

end Syrotp.Sdk.Swift
