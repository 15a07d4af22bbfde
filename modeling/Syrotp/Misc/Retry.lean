import Mathlib.Data.List.Basic

/-!
# Jobs that are retried

A job is attempted until an attempt ends it or the attempts are used up; between two of them it
waits for the delay that a table has for their number. `RetryJob.next` is the job as it should go.
What follows for the events of any job is proved here, so code that keeps to it needs no more than
a simulation.
-/

namespace Syrotp

/-- What an attempt came to. -/
inductive Verdict (ε : Type*) where
  | final (ending : ε)
  | retriable
  deriving DecidableEq, Repr

/-- Where a job stands. -/
inductive RetryJob (ε : Type*) where
  /-- So many attempts were made, and there is none before `due`. -/
  | waiting (made due : Nat)
  | claimed (made : Nat)
  | trying (attempt : Nat)
  /-- The verdict is not in force yet. -/
  | settling (made : Nat) (verdict : Verdict ε)
  | ended (made : Nat) (ending : ε)
  deriving DecidableEq, Repr

inductive RetryEvent (ε : Type*) where
  | claimed (time : Nat)
  | sent (attempt : Nat)
  /-- It ends without the attempt. -/
  | refused (ending : ε)
  | answered (verdict : Verdict ε)
  | written (time : Nat)
  deriving DecidableEq, Repr

/-- What is retried and when: the delay after each attempt that has one after it, and how the job
ends after the last. -/
structure RetryPolicy (ε : Type*) where
  delays : List Nat
  exhausted : ε

variable {ε : Type*} {policy : RetryPolicy ε} {j j' : RetryJob ε} {es : List (RetryEvent ε)}

/-- Where a verdict leaves a job at a time. -/
def RetryPolicy.settle (policy : RetryPolicy ε) (made time : Nat) : Verdict ε → RetryJob ε
  | .final ending => .ended made ending
  | .retriable =>
    match policy.delays[made - 1]? with
    | some delay => .waiting made (time + delay)
    | none => .ended made policy.exhausted

namespace RetryJob

def next (policy : RetryPolicy ε) : RetryJob ε → RetryEvent ε → Option (RetryJob ε)
  | .waiting made due, .claimed time => if due ≤ time then some (.claimed made) else none
  | .claimed made, .sent attempt =>
    if attempt = made + 1 then some (.trying attempt) else none
  | .claimed made, .refused ending => some (.settling made (.final ending))
  | .trying attempt, .answered verdict => some (.settling attempt verdict)
  | .settling made verdict, .written time => some (policy.settle made time verdict)
  | _, _ => none

/-- What each event does to a job. -/
inductive Step (policy : RetryPolicy ε) : RetryJob ε → RetryEvent ε → RetryJob ε → Prop
  | claimed {made due time} : due ≤ time →
      Step policy (.waiting made due) (.claimed time) (.claimed made)
  | sent {made} : Step policy (.claimed made) (.sent (made + 1)) (.trying (made + 1))
  | refused {made ending} :
      Step policy (.claimed made) (.refused ending) (.settling made (.final ending))
  | answered {attempt verdict} :
      Step policy (.trying attempt) (.answered verdict) (.settling attempt verdict)
  | written {made verdict time} : Step policy (.settling made verdict) (.written time)
      (policy.settle made time verdict)

theorem next_step {e : RetryEvent ε} (h : j.next policy e = some j') : Step policy j e j' := by
  unfold next at h
  split at h
  case h_1 =>
    obtain ⟨due, same⟩ := Option.ite_none_right_eq_some.mp h
    exact Option.some.inj same ▸ .claimed due
  case h_2 =>
    obtain ⟨rfl, same⟩ := Option.ite_none_right_eq_some.mp h
    exact Option.some.inj same ▸ .sent
  case h_3 => exact Option.some.inj h ▸ .refused
  case h_4 => exact Option.some.inj h ▸ .answered
  case h_5 => exact Option.some.inj h ▸ .written
  case h_6 => exact nomatch h

/-- The job after these events, if it can go so. -/
def after (policy : RetryPolicy ε) (j : RetryJob ε) (es : List (RetryEvent ε)) :
    Option (RetryJob ε) :=
  es.foldlM (next policy) j

@[simp] theorem after_nil : j.after policy [] = some j := rfl

@[simp] theorem after_cons (e : RetryEvent ε) :
    j.after policy (e :: es) = (j.next policy e).bind fun t => t.after policy es := rfl

theorem after_event {e : RetryEvent ε} (h : j.next policy e = some j') :
    j.after policy (some e).toList = some j' := by
  rw [Option.toList_some, after_cons, h, Option.bind_some, after_nil]

theorem after_append (es' : List (RetryEvent ε)) :
    j.after policy (es ++ es') = (j.after policy es).bind fun t => t.after policy es' :=
  List.foldlM_append ..

/-- What each event keeps holds after all. -/
theorem after_invariant {P : RetryJob ε → Prop} (h : j.after policy es = some j') (init : P j)
    (kept : ∀ t e u, P t → next policy t e = some u → P u) : P j' := by
  induction es generalizing j with
  | nil => exact Option.some.inj h ▸ init
  | cons e es ih =>
    rw [after_cons, Option.bind_eq_some_iff] at h
    obtain ⟨t, ht, h⟩ := h
    exact ih h (kept j e t init ht)

/-- Nothing happens to a job that has ended. -/
theorem after_ended {made : Nat} {ending : ε}
    (h : (ended made ending).after policy es = some j') : es = [] ∧ j' = .ended made ending := by
  cases es with
  | nil => exact ⟨rfl, (Option.some.inj h).symm⟩
  | cons e es =>
    rw [after_cons, Option.bind_eq_some_iff] at h
    obtain ⟨_, none, _⟩ := h
    exact nomatch none

/-! ## The attempts -/

/-- How many attempts have been made. -/
def made : RetryJob ε → Nat
  | .waiting made _ => made
  | .claimed made => made
  | .trying attempt => attempt
  | .settling made _ => made
  | .ended made _ => made

@[simp] theorem settle_made (n time : Nat) (verdict : Verdict ε) :
    (policy.settle n time verdict).made = n := by
  unfold RetryPolicy.settle
  split
  · rfl
  · split <;> rfl

/-- The number of the attempt that begins with the event. -/
def attemptOf : RetryEvent ε → Option Nat
  | .sent attempt => some attempt
  | _ => none

/-- An attempt has the next number, and only attempts are counted. -/
theorem next_made {e : RetryEvent ε} (h : j.next policy e = some j') :
    (attemptOf e = some (j.made + 1) ∧ j'.made = j.made + 1) ∨
      (attemptOf e = none ∧ j'.made = j.made) := by
  cases next_step h with
  | claimed => exact .inr ⟨rfl, rfl⟩
  | sent => exact .inl ⟨rfl, rfl⟩
  | refused => exact .inr ⟨rfl, rfl⟩
  | answered => exact .inr ⟨rfl, rfl⟩
  | written => exact .inr ⟨rfl, settle_made ..⟩

/-- The attempts of a job are numbered on without a gap. -/
theorem after_attempts (h : j.after policy es = some j') :
    j.made ≤ j'.made ∧ es.filterMap attemptOf = List.range' (j.made + 1) (j'.made - j.made) := by
  induction es generalizing j with
  | nil =>
    obtain rfl := Option.some.inj h
    simp
  | cons e es ih =>
    rw [after_cons, Option.bind_eq_some_iff] at h
    obtain ⟨t, ht, h⟩ := h
    obtain ⟨grown, rest⟩ := ih h
    rcases next_made ht with ⟨sent, one⟩ | ⟨silent, none⟩
    · have count : j'.made - j.made = (j'.made - t.made) + 1 := by omega
      refine ⟨by omega, ?_⟩
      rw [List.filterMap_cons_some sent, rest, one, count, List.range'_succ, one]
    · rw [none] at grown rest
      exact ⟨grown, by rw [List.filterMap_cons_none silent, rest]⟩

/-- A job that is not over has attempts left. -/
def Within (policy : RetryPolicy ε) : RetryJob ε → Prop
  | .waiting made _ => made ≤ policy.delays.length
  | .claimed made => made ≤ policy.delays.length
  | .trying attempt => 0 < attempt ∧ attempt ≤ policy.delays.length + 1
  | .settling made verdict =>
    made ≤ policy.delays.length + 1 ∧ (verdict = .retriable → 0 < made)
  | .ended made _ => made ≤ policy.delays.length + 1

theorem Within.settle {n time : Nat} {verdict : Verdict ε}
    (bound : n ≤ policy.delays.length + 1) : (policy.settle n time verdict).Within policy := by
  unfold RetryPolicy.settle
  split
  · exact bound
  · split
    · next delay here =>
      have := (List.getElem?_eq_some_iff.mp here).1
      exact show n ≤ policy.delays.length by omega
    · exact bound

theorem Within.next {e : RetryEvent ε} (h : j.Within policy) (hn : j.next policy e = some j') :
    j'.Within policy := by
  cases next_step hn with
  | claimed => exact h
  | sent => exact ⟨Nat.succ_pos _, Nat.succ_le_succ h⟩
  | refused => exact ⟨Nat.le_succ_of_le h, nofun⟩
  | answered => exact ⟨h.2, fun _ => h.1⟩
  | written => exact .settle h.1

/-- There are never more attempts than one and one for each delay. -/
theorem after_within (init : j.Within policy) (h : j.after policy es = some j') :
    j'.Within policy := after_invariant h init fun _ _ _ => Within.next

theorem Within.made_le (h : j.Within policy) : j.made ≤ policy.delays.length + 1 := by
  cases j with
  | waiting => exact Nat.le_succ_of_le h
  | claimed => exact Nat.le_succ_of_le h
  | trying => exact h.2
  | settling => exact h.1
  | ended => exact h

/-- The table is used up after the last attempt and not before. -/
theorem Within.exhausted {n : Nat} (h : (settling (ε := ε) n .retriable).Within policy) :
    policy.delays[n - 1]? = none ↔ n = policy.delays.length + 1 := by
  have := h.1
  have := h.2 rfl
  rw [List.getElem?_eq_none_iff]
  omega

/-! ## The waits -/

/-- The wait after this many attempts is over. -/
def Past (n : Nat) : RetryJob ε → Prop
  | .waiting made _ => n < made
  | .claimed made => n ≤ made
  | .trying attempt => n < attempt
  | .settling made verdict => verdict = .retriable → n < made
  | .ended .. => True

theorem Past.next {n : Nat} {e : RetryEvent ε} (h : j.Past n) (hn : j.next policy e = some j') :
    j'.Past n := by
  cases next_step hn with
  | claimed => exact Nat.le_of_lt h
  | sent => exact Nat.lt_succ_of_le h
  | refused => exact nofun
  | answered => exact fun _ => h
  | @written made verdict time =>
    cases verdict with
    | final ending => exact trivial
    | retriable =>
      simp only [RetryPolicy.settle]
      split
      · exact h rfl
      · exact trivial

/-- A job that still waits for the same attempt waits until the same time. -/
theorem after_waiting {n due due' : Nat}
    (h : (waiting n due).after policy es = some (.waiting n due')) : due' = due := by
  cases es with
  | nil => exact (RetryJob.waiting.inj (Option.some.inj h)).2.symm
  | cons e es =>
    rw [after_cons, Option.bind_eq_some_iff] at h
    obtain ⟨t, ht, h⟩ := h
    have past : t.Past n := by
      cases next_step ht with
      | claimed => exact Nat.le_refl n
    exact absurd (after_invariant h past fun _ _ _ => Past.next) (Nat.lt_irrefl n)

end RetryJob

end Syrotp
