import Mathlib.Data.List.Basic
import Mathlib.Data.List.Induction

/-!
# Counted attempts

A sender keeps an item until it is delivered and counts every attempt that fails, for a while or for
good; when the count is up, the next client error ends it. The item is given up for a reason, at
least as many permanent errors as the maximum, exactly when the failures that filled the count were
permanent and the last error is too.
-/

namespace Syrotp

/-- How an attempt ends. -/
inductive Outcome where
  | delivered
  | unauthorized
  | throttled
  | permanent
  | transient
  deriving DecidableEq, Repr

namespace Outcome

/-- The outcome that a status of HTTP stands for. -/
def ofStatus (status : Nat) : Outcome :=
  if 200 ≤ status ∧ status < 300 ∨ status = 409 then .delivered
  else if status = 401 then .unauthorized
  else if status = 429 then .throttled
  else if 400 ≤ status ∧ status < 500 then .permanent
  else .transient

/-- The status is from 400 to 499, and neither 401 nor 409. -/
def isClientError : Outcome → Bool
  | .throttled | .permanent => true
  | _ => false

def isFailure : Outcome → Bool
  | .throttled | .permanent | .transient => true
  | _ => false

variable {status : Nat}

theorem ofStatus_delivered (h : 200 ≤ status ∧ status < 300 ∨ status = 409) :
    ofStatus status = .delivered := if_pos h

theorem ofStatus_client (refused : ¬(200 ≤ status ∧ status < 300 ∨ status = 409))
    (authorized : status ≠ 401) (client : 400 ≤ status ∧ status < 500) :
    (ofStatus status).isClientError = true := by
  rw [ofStatus, if_neg refused, if_neg authorized, if_pos client]
  split <;> rfl

theorem ofStatus_transient (refused : ¬(200 ≤ status ∧ status < 300 ∨ status = 409))
    (authorized : status ≠ 401) (server : ¬(400 ≤ status ∧ status < 500)) :
    ofStatus status = .transient := by
  have other : status ≠ 429 := fun same => server (by omega)
  rw [ofStatus, if_neg refused, if_neg authorized, if_neg other, if_neg server]

theorem isFailure_of_isClientError {o : Outcome} (h : o.isClientError = true) :
    o.isFailure = true := by
  cases o <;> first | rfl | cases h

end Outcome

/-- The count of an item after one more attempt, `none` once it is gone. -/
def countAttempt (most : Nat) : Option Nat → Outcome → Option Nat
  | none, _ => none
  | some _, .delivered => none
  | some n, .unauthorized => some n
  | some n, .transient => some (n + 1)
  | some n, .throttled => if most ≤ n + 1 then none else some (n + 1)
  | some n, .permanent => if most ≤ n + 1 then none else some (n + 1)

def countAttempts (most : Nat) (history : List Outcome) : Option Nat :=
  history.foldl (countAttempt most) (some 0)

def failures (history : List Outcome) : List Outcome := history.filter Outcome.isFailure

/-- The item was delivered, or had as many permanent errors as the maximum. -/
def HasReason (most : Nat) (history : List Outcome) : Prop :=
  .delivered ∈ history ∨ most ≤ history.count .permanent

/-- If this outcome is a client error and the count is up, it is a permanent error, and so were the
failures that filled the count. -/
def CountsPermanent (most : Nat) (history : List Outcome) (o : Outcome) : Prop :=
  o.isClientError = true → most ≤ (failures history).length + 1 →
    o = .permanent ∧ ∀ f ∈ (failures history).take (most - 1), f = .permanent

instance (most : Nat) (history : List Outcome) : Decidable (HasReason most history) :=
  inferInstanceAs (Decidable (_ ∨ _))

instance (most : Nat) (history : List Outcome) (o : Outcome) :
    Decidable (CountsPermanent most history o) := inferInstanceAs (Decidable (_ → _ → _ ∧ _))

variable {most n : Nat} {history : List Outcome} {o : Outcome}

theorem countAttempt_client (client : o.isClientError = true) :
    countAttempt most (some n) o = if most ≤ n + 1 then none else some (n + 1) := by
  cases o <;> first | rfl | cases client

theorem countAttempts_concat (most : Nat) (history : List Outcome) (o : Outcome) :
    countAttempts most (history ++ [o]) = countAttempt most (countAttempts most history) o := by
  rw [countAttempts, List.foldl_append, List.foldl_cons, List.foldl_nil, countAttempts]

theorem failures_concat (history : List Outcome) (o : Outcome) :
    failures (history ++ [o]) = failures history ++ if o.isFailure then [o] else [] := by
  rw [failures, List.filter_append, failures]
  cases fails : o.isFailure with
  | true => rw [List.filter_cons_of_pos fails, List.filter_nil, if_pos rfl]
  | false => rw [List.filter_cons_of_neg (by simp [fails]), List.filter_nil, if_neg (by simp)]

/-- Reasons do not go away. -/
theorem HasReason.mono (h : HasReason most history) (later : List Outcome) :
    HasReason most (history ++ later) := by
  rcases h with delivered | errors
  · exact .inl (List.mem_append_left _ delivered)
  · refine .inr (Nat.le_trans errors ?_)
    rw [List.count_append]
    exact Nat.le_add_right _ _

/-- Permanent errors that fill the count are a reason. -/
theorem CountsPermanent.hasReason (h : CountsPermanent most history o)
    (client : o.isClientError = true) (up : most ≤ (failures history).length + 1) :
    HasReason most (history ++ [o]) := by
  obtain ⟨rfl, filled⟩ := h client up
  have counted : ((failures history).take (most - 1)).count .permanent = most - 1 := by
    rw [List.count_eq_length.mpr fun f hf => (filled f hf).symm, List.length_take]
    omega
  have part : ((failures history).take (most - 1)).count .permanent ≤
      (failures history).count .permanent := (List.take_sublist _ _).count_le _
  have kept : (failures history).count .permanent = history.count .permanent :=
    List.count_filter rfl
  refine .inr ?_
  rw [List.count_append, List.count_singleton_self]
  omega

/-- An item that is still there was not delivered, its count is that of its failures, and no client
error came when the count was up. -/
structure Counting (most n : Nat) (history : List Outcome) : Prop where
  count : n = (failures history).length
  waiting : .delivered ∉ history
  spent : ∀ f ∈ (failures history).drop (most - 1), f = .transient

theorem countAttempt_eq_some {m : Nat} (h : countAttempt most (some m) o = some n) :
    o ≠ .delivered ∧ n = m + (if o.isFailure then 1 else 0) ∧
      (o.isClientError = true → m + 1 < most) := by
  have client : (if most ≤ m + 1 then none else some (m + 1)) = some n →
      n = m + 1 ∧ m + 1 < most := by
    intro h
    obtain ⟨more, h⟩ := Option.ite_none_left_eq_some.mp h
    exact ⟨(Option.some.inj h).symm, Nat.lt_of_not_le more⟩
  cases o with
  | delivered => cases h
  | unauthorized => exact ⟨by decide, (Option.some.inj h).symm, by rintro ⟨⟩⟩
  | transient => exact ⟨by decide, (Option.some.inj h).symm, by rintro ⟨⟩⟩
  | throttled => exact ⟨by decide, (client h).1, fun _ => (client h).2⟩
  | permanent => exact ⟨by decide, (client h).1, fun _ => (client h).2⟩

theorem counting_of_countAttempts (h : countAttempts most history = some n) :
    Counting most n history := by
  induction history using List.reverseRecOn generalizing n with
  | nil =>
    obtain rfl := Option.some.inj h
    exact ⟨rfl, List.not_mem_nil, by simp [failures]⟩
  | append_singleton history o ih =>
    rw [countAttempts_concat] at h
    cases before : countAttempts most history with
    | none =>
      rw [before] at h
      cases h
    | some m =>
      rw [before] at h
      obtain ⟨other, count, early⟩ := countAttempt_eq_some h
      have earlier := ih before
      refine ⟨?_, ?_, ?_⟩
      · rw [count, earlier.count, failures_concat]
        cases o.isFailure <;> simp
      · rw [List.mem_append, List.mem_singleton, not_or]
        exact ⟨earlier.waiting, Ne.symm other⟩
      · cases client : o.isClientError with
        | true =>
          -- the count was not up, so the failures do not yet fill it
          have short : (failures (history ++ [o])).length ≤ most - 1 := by
            have first := early client
            rw [earlier.count] at first
            rw [failures_concat, List.length_append]
            have one : (if o.isFailure = true then [o] else []).length ≤ 1 := by
              split <;> simp
            omega
          rw [List.drop_eq_nil_of_le short]
          exact List.forall_mem_nil _
        | false =>
          have new : ∀ f ∈ (if o.isFailure = true then [o] else []), f = .transient := by
            cases o <;> simp_all [Outcome.isFailure, Outcome.isClientError]
          intro f hf
          rw [failures_concat, List.drop_append] at hf
          rcases List.mem_append.mp hf with old | last
          · exact earlier.spent f old
          · exact new f (List.mem_of_mem_drop last)

/-- No more than the maximum of permanent errors come before the last one, and they fill the count
only if every failure in it is one. -/
theorem Counting.count_permanent (h : Counting most n history) :
    history.count .permanent = ((failures history).take (most - 1)).count .permanent := by
  have kept : (failures history).count .permanent = history.count .permanent :=
    List.count_filter rfl
  have none : ((failures history).drop (most - 1)).count .permanent = 0 :=
    List.count_eq_zero.mpr fun mem => by cases h.spent _ mem
  rw [← kept, ← List.take_append_drop (most - 1) (failures history), List.count_append, none,
    Nat.add_zero, List.take_append_drop]

/-- An attempt that ends a waiting item does so for a reason exactly if the count is of permanent
errors. -/
theorem hasReason_iff (positive : 0 < most) (h : countAttempts most history = some n)
    (ends : countAttempt most (some n) o = none) :
    HasReason most (history ++ [o]) ↔ CountsPermanent most history o := by
  have counting := counting_of_countAttempts h
  constructor
  · intro reason client up
    have waiting : .delivered ∉ history ++ [o] := by
      rw [List.mem_append, List.mem_singleton, not_or]
      refine ⟨counting.waiting, ?_⟩
      rintro rfl
      cases client
    have errors := reason.resolve_left waiting
    rw [List.count_append, counting.count_permanent] at errors
    have filled := List.count_le_length (a := Outcome.permanent)
      (l := (failures history).take (most - 1))
    have length : ((failures history).take (most - 1)).length = most - 1 := by
      rw [List.length_take]
      omega
    by_cases permanent : o = .permanent
    · subst permanent
      rw [List.count_singleton_self] at errors
      refine ⟨rfl, fun f hf => ?_⟩
      exact (List.count_eq_length.mp (by omega) f hf).symm
    · rw [List.count_eq_zero.mpr fun mem => permanent (List.mem_singleton.mp mem).symm] at errors
      omega
  · intro counts
    have up : o.isClientError = true → most ≤ (failures history).length + 1 := by
      intro client
      rw [countAttempt_client client] at ends
      rw [← counting.count]
      by_contra more
      rw [if_neg more] at ends
      cases ends
    cases o with
    | delivered => exact .inl (List.mem_append_right _ (List.mem_singleton_self _))
    | unauthorized => cases ends
    | transient => cases ends
    | throttled => exact counts.hasReason rfl (up rfl)
    | permanent => exact counts.hasReason rfl (up rfl)

/-- An attempt that does not end a waiting item asks for nothing. -/
theorem countsPermanent_of_some {m : Nat} (h : countAttempts most history = some n)
    (stays : countAttempt most (some n) o = some m) : CountsPermanent most history o := by
  intro client up
  have early := (countAttempt_eq_some stays).2.2 client
  rw [(counting_of_countAttempts h).count] at early
  omega

/-! ## Logs -/

section Logs

variable {ε κ : Type*} [DecidableEq κ] {answer : ε → Option (κ × Outcome)}

/-- What the steps of a log answer to an item, where `answer` says what a step answers to which. -/
def answersTo (answer : ε → Option (κ × Outcome)) (id : κ) (log : List ε) : List Outcome :=
  log.filterMap fun e => (answer e).bind fun a => if a.1 = id then some a.2 else none

/-- The items that are gone after this step were delivered, or had their share of permanent
errors. -/
def LeavesForReason (most : Nat) (answer : ε → Option (κ × Outcome)) (gone : ε → κ → Prop)
    (log : List ε) (e : ε) : Prop :=
  ∀ id, gone e id → HasReason most (answersTo answer id (log ++ [e]))

/-- If this step answers an item with a client error and the item's count is up, the count is of
permanent errors. -/
def AnswersPermanent (most : Nat) (answer : ε → Option (κ × Outcome)) (log : List ε) (e : ε) :
    Prop :=
  ∀ a ∈ answer e, CountsPermanent most (answersTo answer a.1 log) a.2

/-- Every item that leaves in this log has a reason. -/
def ExitsForReasons (most : Nat) (answer : ε → Option (κ × Outcome)) (gone : ε → κ → Prop)
    (log : List ε) : Prop :=
  ∀ log₁ e log₂, log = log₁ ++ e :: log₂ → LeavesForReason most answer gone log₁ e

/-- The counts that client errors end in this log are of permanent errors. -/
def CountsOfPermanent (most : Nat) (answer : ε → Option (κ × Outcome)) (log : List ε) : Prop :=
  ∀ n (h : n < log.length), AnswersPermanent most answer (log.take n) log[n]

instance (most : Nat) (log : List ε) : Decidable (CountsOfPermanent most answer log) :=
  inferInstanceAs (Decidable (∀ n (h : n < log.length), ∀ a ∈ answer log[n],
    CountsPermanent most (answersTo answer a.1 (log.take n)) a.2))

theorem answersTo_concat {e : ε} (id : κ) (log : List ε) : answersTo answer id (log ++ [e]) =
    answersTo answer id log ++ answersTo answer id [e] := List.filterMap_append

/-- A step that answers the item. -/
theorem answersTo_of_answer {e : ε} {id : κ} {o : Outcome} (h : answer e = some (id, o))
    (log : List ε) : answersTo answer id (log ++ [e]) = answersTo answer id log ++ [o] := by
  rw [answersTo_concat]
  simp [answersTo, h]

/-- A step that answers nothing, or something else. -/
theorem answersTo_of_other {e : ε} {id : κ} (other : ∀ a ∈ answer e, a.1 ≠ id) (log : List ε) :
    answersTo answer id (log ++ [e]) = answersTo answer id log := by
  rw [answersTo_concat]
  cases h : answer e with
  | none => simp [answersTo, h]
  | some a => simp [answersTo, h, other a h]

/-- At every step, taken with the log before it. -/
theorem countsOfPermanent_iff {most : Nat} {log : List ε} : CountsOfPermanent most answer log ↔
    ∀ log₁ e log₂, log = log₁ ++ e :: log₂ → AnswersPermanent most answer log₁ e := by
  constructor
  · rintro h log₁ e log₂ rfl
    simpa using h log₁.length (by simp)
  · intro h n hn
    refine h _ _ (log.drop (n + 1)) ?_
    rw [← List.drop_eq_getElem_cons hn, List.take_append_drop]

theorem CountsOfPermanent.take {most : Nat} {log log₁ log₂ : List ε}
    (h : CountsOfPermanent most answer log) (split : log = log₁ ++ log₂) :
    CountsOfPermanent most answer log₁ := by
  subst split
  intro n hn
  have here := h n (by simp; omega)
  rwa [List.take_append_of_le_length (Nat.le_of_lt hn), List.getElem_append_left hn] at here

end Logs

end Syrotp
