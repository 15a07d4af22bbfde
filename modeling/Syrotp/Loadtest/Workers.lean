import Mathlib.Algebra.Group.Nat.Defs

/-!
# The worker pool of the load test

`runPool` of `tools/loadtest/src/workers.ts`: loops that share a cursor, each waiting for its own
task. A task ends whenever it does, also after the pool has settled. The progress callback returns.
-/

namespace Syrotp.Loadtest

/-- Where a loop is: in a task, or at its end. -/
inductive Worker where
  | running (index : Nat)
  | returned
  | threw
  deriving DecidableEq, Repr

def Worker.isRunning : Worker → Bool
  | .running _ => true
  | .returned | .threw => false

/-- What the promise of the pool comes to. -/
inductive Settled where
  | fulfilled
  | rejected
  deriving DecidableEq, Repr

/-- The variables of `runPool`, with the indices that `work` has been called with and the values of
`done` that have been reported. -/
structure PoolState where
  next : Nat
  done : Nat
  lastReport : Nat
  tasks : List Worker
  settled : Option Settled
  started : List Nat
  reports : List Nat
  deriving DecidableEq, Repr

def PoolState.init : PoolState := ⟨0, 0, 0, [], none, [], []⟩

/-- `n++` on a number. -/
def increment (n : Nat) : Nat := if n < 2 ^ 53 then n + 1 else n

inductive PoolStep where
  /-- The next worker is started. -/
  | start
  /-- The task of a worker is done. -/
  | fulfill (w : Nat)
  /-- The task of a worker throws. -/
  | throws (w : Nat)
  /-- The promise of all workers settles. -/
  | settle
  deriving DecidableEq, Repr

section

variable (total workers : Nat) (onProgress : Bool)

def concurrency : Nat := max 1 (min workers total)

/-- The head of the loop: the next index is taken, and `work` is called with it if it is one. -/
def PoolState.turn (p : PoolState) : PoolState × Worker :=
  let i := p.next
  let p := { p with next := increment i }
  if total ≤ i then (p, .returned)
  else ({ p with started := p.started ++ [i] }, .running i)

/-- The `finally` block. -/
def PoolState.ended (p : PoolState) : PoolState :=
  let p := { p with done := increment p.done }
  if onProgress ∧ max 1 (total / 20) ≤ p.done - p.lastReport then
    { p with lastReport := p.done, reports := p.reports ++ [p.done] }
  else p

def PoolState.step (p : PoolState) : PoolStep → Option PoolState
  | .start =>
    if p.tasks.length < concurrency total workers then
      let r := p.turn total
      some { r.1 with tasks := p.tasks ++ [r.2] }
    else none
  | .fulfill w =>
    -- the loop that starts the workers does not wait for any
    if p.tasks.length < concurrency total workers then none
    else
      match p.tasks[w]? with
      | some (.running _) =>
        let (q, t) := (p.ended total onProgress).turn total
        some { q with tasks := p.tasks.set w t }
      | _ => none
  | .throws w =>
    -- meanwhile a task throws only if it does so at once
    if p.tasks.length < concurrency total workers ∧ w + 1 ≠ p.tasks.length then none
    else
      match p.tasks[w]? with
      | some (.running _) => some { p.ended total onProgress with tasks := p.tasks.set w .threw }
      | _ => none
  | .settle =>
    if p.tasks.length < concurrency total workers ∨ p.settled.isSome then none
    else if .threw ∈ p.tasks then some { p with settled := some .rejected }
    else if ∀ t ∈ p.tasks, t = .returned then
      some { p with
        settled := some .fulfilled
        reports := if onProgress then p.reports ++ [p.done] else p.reports }
    else none

end

end Syrotp.Loadtest
