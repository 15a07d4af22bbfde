import Mathlib.Data.List.Nodup
import Syrotp.Loadtest.Workers
import Syrotp.Misc.Run

/-!
# What a pool runs

Whatever the tasks do, each index is taken in turn and no more than `concurrency` tasks run. If one
throws while another runs, the pool is rejected before that one is done.
-/

namespace Syrotp.Loadtest

/-! ## The head and the tail of the loop -/

section

variable {total workers : Nat} {onProgress : Bool} {p q : PoolState} {t : Worker} {a : PoolStep}

theorem increment_lt {n : Nat} (h : n < 2 ^ 53) : increment n = n + 1 := if_pos h

theorem le_increment (n : Nat) : n ≤ increment n := by
  unfold increment
  split <;> omega

theorem turn_last (none : total ≤ p.next) :
    p.turn total = ({ p with next := increment p.next }, .returned) := if_pos none

theorem turn_next (left : p.next < total) : p.turn total =
    ({ p with next := increment p.next, started := p.started ++ [p.next] }, .running p.next) :=
  if_neg (Nat.not_le.mpr left)

@[simp] theorem turn_done : (p.turn total).1.done = p.done := by
  rcases Nat.lt_or_ge p.next total with left | none
  · rw [turn_next left]
  · rw [turn_last none]

@[simp] theorem turn_settled : (p.turn total).1.settled = p.settled := by
  rcases Nat.lt_or_ge p.next total with left | none
  · rw [turn_next left]
  · rw [turn_last none]

theorem turn_not_threw : (p.turn total).2 ≠ .threw := by
  rcases Nat.lt_or_ge p.next total with left | none
  · rw [turn_next left]
    exact nofun
  · rw [turn_last none]
    exact nofun

/-- `done` is counted up, and may be reported. -/
structure Counted (p q : PoolState) : Prop where
  next : q.next = p.next
  done : q.done = increment p.done
  settled : q.settled = p.settled
  started : q.started = p.started

theorem ended_counted : Counted p (p.ended total onProgress) := by
  unfold PoolState.ended
  dsimp only
  split
  · exact ⟨rfl, rfl, rfl, rfl⟩
  · exact ⟨rfl, rfl, rfl, rfl⟩

/-- The indices are taken in turn. -/
def InTurn (total : Nat) (p : PoolState) : Prop := p.started = List.range (min p.next total)

theorem Counted.inTurn (ended : Counted p q) (inTurn : InTurn total p) : InTurn total q := by
  rw [InTurn, ended.started, ended.next]
  exact inTurn

/-- What is taken is the next index, and a worker returns only if there is none. -/
theorem turn_spec (counted : total ≤ 2 ^ 53) (inTurn : InTurn total p) :
    InTurn total (p.turn total).1 ∧ p.next ≤ (p.turn total).1.next ∧
      ((p.turn total).2 = .returned → total ≤ (p.turn total).1.next) ∧
      (p.turn total).1.started.length =
        p.started.length + if (p.turn total).2.isRunning then 1 else 0 := by
  have further := le_increment p.next
  unfold InTurn at inTurn ⊢
  rcases Nat.lt_or_ge p.next total with left | none
  · rw [turn_next left]
    refine ⟨?_, further, nofun, by simp [Worker.isRunning]⟩
    rw [increment_lt (Nat.lt_of_lt_of_le left counted), Nat.min_eq_left left, inTurn,
      Nat.min_eq_left (Nat.le_of_lt left), List.range_succ]
  · rw [turn_last none]
    refine ⟨?_, further, fun _ => Nat.le_trans none further, rfl⟩
    rw [inTurn, Nat.min_eq_right none, Nat.min_eq_right (Nat.le_trans none further)]

/-! ## One step -/

/-- The tasks that run. -/
def PoolState.running (p : PoolState) : Nat := p.tasks.countP Worker.isRunning

theorem running_ne {i : Nat} (runs : .running i ∈ p.tasks) : p.running ≠ 0 :=
  Nat.ne_of_gt (List.countP_pos_iff.mpr ⟨_, runs, rfl⟩)

/-- What a step does. -/
theorem step_cases (h : p.step total workers onProgress a = some q) :
    (a = .start ∧ p.tasks.length < concurrency total workers ∧
      q = { (p.turn total).1 with tasks := p.tasks ++ [(p.turn total).2] }) ∨
    (∃ w i p', a = .fulfill w ∧ concurrency total workers ≤ p.tasks.length ∧
      p.tasks[w]? = some (.running i) ∧ Counted p p' ∧
      q = { (p'.turn total).1 with tasks := p.tasks.set w (p'.turn total).2 }) ∨
    (∃ w i p', a = .throws w ∧ p.tasks[w]? = some (.running i) ∧ Counted p p' ∧
      q = { p' with tasks := p.tasks.set w .threw }) ∨
    (a = .settle ∧ concurrency total workers ≤ p.tasks.length ∧ p.settled = none ∧
      (.threw ∈ p.tasks ∨ ∀ t ∈ p.tasks, t = .returned) ∧
      ∃ s reports, q = { p with settled := some s, reports := reports }) := by
  cases a with
  | start =>
    obtain ⟨free, same⟩ := Option.ite_none_right_eq_some.mp h
    exact .inl ⟨rfl, free, (Option.some.inj same).symm⟩
  | fulfill w =>
    obtain ⟨full, same⟩ := Option.ite_none_left_eq_some.mp h
    split at same
    · next i found =>
      exact .inr (.inl ⟨w, i, _, rfl, Nat.le_of_not_lt full, found, ended_counted,
        (Option.some.inj same).symm⟩)
    · cases same
  | throws w =>
    obtain ⟨-, same⟩ := Option.ite_none_left_eq_some.mp h
    split at same
    · next i found =>
      exact .inr (.inr (.inl ⟨w, i, _, rfl, found, ended_counted, (Option.some.inj same).symm⟩))
    · cases same
  | settle =>
    obtain ⟨full, same⟩ := Option.ite_none_left_eq_some.mp h
    obtain ⟨spawned, open'⟩ := not_or.mp full
    refine .inr (.inr (.inr ⟨rfl, Nat.le_of_not_lt spawned, Option.not_isSome_iff_eq_none.mp open',
      ?_⟩))
    split at same
    · next threw =>
      exact ⟨.inl threw, .rejected, p.reports, (Option.some.inj same).symm⟩
    · obtain ⟨all, same⟩ := Option.ite_none_right_eq_some.mp same
      exact ⟨.inr all, .fulfilled, _, (Option.some.inj same).symm⟩

/-- A worker that takes another's place. -/
theorem countP_set_running {tasks : List Worker} {w i : Nat} (h : tasks[w]? = some (.running i)) :
    (tasks.set w t).countP Worker.isRunning + 1 =
      tasks.countP Worker.isRunning + if t.isRunning then 1 else 0 := by
  obtain ⟨inside, there⟩ := List.getElem?_eq_some_iff.mp h
  have counted : 0 < tasks.countP Worker.isRunning :=
    List.countP_pos_iff.mpr ⟨_, List.mem_of_getElem? h, rfl⟩
  simp only [List.countP_set inside, there, Worker.isRunning, if_true]
  omega

/-- What holds of a pool in any run. -/
structure Kept (total workers : Nat) (p : PoolState) : Prop where
  inTurn : InTurn total p
  spawned : p.tasks.length ≤ concurrency total workers
  returned : .returned ∈ p.tasks → total ≤ p.next
  accounted : p.done + p.running = p.started.length

theorem Kept.started_le (kept : Kept total workers p) : p.started.length ≤ total := by
  rw [kept.inTurn, List.length_range]
  exact Nat.min_le_right _ _

/-- While a task runs, `done` has not come to its end. -/
theorem Kept.done_lt (kept : Kept total workers p) {w i : Nat}
    (found : p.tasks[w]? = some (.running i)) : p.done < total := by
  have runs := running_ne (List.mem_of_getElem? found)
  have few := kept.started_le
  have all := kept.accounted
  omega

theorem Kept.init : Kept total workers .init where
  inTurn := by simp [InTurn, PoolState.init]
  spawned := Nat.zero_le _
  returned := nofun
  accounted := rfl

/-- Every step keeps it. -/
theorem Kept.step (counted : total ≤ 2 ^ 53) (kept : Kept total workers p)
    (h : p.step total workers onProgress a = some q) : Kept total workers q := by
  have all := kept.accounted
  unfold PoolState.running at all
  rcases step_cases h with ⟨-, free, rfl⟩ | ⟨w, i, p', -, -, found, ended, rfl⟩ |
    ⟨w, i, p', -, found, ended, rfl⟩ | ⟨-, -, -, -, s, reports, rfl⟩
  · obtain ⟨inTurn, further, last, more⟩ := turn_spec counted kept.inTurn
    refine ⟨inTurn, ?_, fun gone => ?_, ?_⟩
    · rw [List.length_append]
      exact free
    · rcases List.mem_append.mp gone with before | now
      · exact Nat.le_trans (kept.returned before) further
      · exact last (List.mem_singleton.mp now).symm
    · simp only [PoolState.running, List.countP_append, List.countP_singleton, turn_done]
      omega
  · obtain ⟨inTurn, further, last, more⟩ := turn_spec counted (ended.inTurn kept.inTurn)
    rw [ended.next] at further
    refine ⟨inTurn, ?_, fun gone => ?_, ?_⟩
    · rw [List.length_set]
      exact kept.spawned
    · rcases List.mem_or_eq_of_mem_set gone with before | now
      · exact Nat.le_trans (kept.returned before) further
      · exact last now.symm
    · have others := countP_set_running (t := (p'.turn total).2) found
      have next := increment_lt (Nat.lt_of_lt_of_le (kept.done_lt found) counted)
      rw [ended.started] at more
      simp only [PoolState.running, turn_done, ended.done]
      omega
  · refine ⟨ended.inTurn kept.inTurn, ?_, fun gone => ?_, ?_⟩
    · rw [List.length_set]
      exact kept.spawned
    · rcases List.mem_or_eq_of_mem_set gone with before | now
      · rw [ended.next]
        exact kept.returned before
      · cases now
    · have others := countP_set_running (t := .threw) found
      have next := increment_lt (Nat.lt_of_lt_of_le (kept.done_lt found) counted)
      simp only [Worker.isRunning, Bool.false_eq_true, if_false] at others
      simp only [PoolState.running, ended.done, ended.started]
      omega
  · exact ⟨kept.inTurn, kept.spawned, kept.returned, kept.accounted⟩

/-! ## Runs -/

variable {log : List (PoolState × PoolStep)}

theorem Kept.run (counted : total ≤ 2 ^ 53)
    (run : Run (PoolState.step total workers onProgress) .init log p) : Kept total workers p :=
  run.invariant Kept.init fun _ _ _ kept h => kept.step counted h

/-- A run takes a step for each worker, one for each task that ends, and one to settle. -/
theorem run_length (counted : total ≤ 2 ^ 53)
    (run : Run (PoolState.step total workers onProgress) .init log p) :
    log.length = p.tasks.length + p.done + p.settled.toList.length := by
  induction run with
  | start => rfl
  | @next log t u a run hs ih =>
    have kept := Kept.run counted run
    rw [List.length_append, List.length_singleton, ih]
    rcases step_cases hs with ⟨-, -, rfl⟩ | ⟨w, i, p', -, -, found, ended, rfl⟩ |
      ⟨w, i, p', -, found, ended, rfl⟩ | ⟨-, -, open', -, s, reports, rfl⟩
    · rw [List.length_append, turn_done, turn_settled, List.length_singleton]
      omega
    · rw [List.length_set, turn_done, turn_settled, ended.done, ended.settled,
        increment_lt (Nat.lt_of_lt_of_le (kept.done_lt found) counted)]
      omega
    · rw [List.length_set, ended.done, ended.settled,
        increment_lt (Nat.lt_of_lt_of_le (kept.done_lt found) counted)]
      omega
    · rw [open']
      rfl

/-- A task throws only when all workers have been started and no other task runs. -/
def Alone (total workers : Nat) (p : PoolState) : PoolStep → Prop
  | .throws _ => concurrency total workers ≤ p.tasks.length ∧ p.running = 1
  | .start | .fulfill _ | .settle => True

instance : ∀ a, Decidable (Alone total workers p a)
  | .throws _ => inferInstanceAs (Decidable (_ ∧ _))
  | .start | .fulfill _ | .settle => isTrue trivial

/-- Once a task has thrown or the pool has settled, nothing runs any more. -/
def Quiet (total workers : Nat) (p : PoolState) : Prop :=
  .threw ∈ p.tasks ∨ p.settled.isSome = true →
    concurrency total workers ≤ p.tasks.length ∧ p.running = 0

theorem Quiet.step (quiet : Quiet total workers p) (alone : Alone total workers p a)
    (h : p.step total workers onProgress a = some q) : Quiet total workers q := by
  rcases step_cases h with ⟨-, free, rfl⟩ | ⟨w, i, p', -, -, found, ended, rfl⟩ |
    ⟨w, i, p', rfl, found, ended, rfl⟩ | ⟨-, full, -, last, s, reports, rfl⟩
  · rintro (threw | settled)
    · rcases List.mem_append.mp threw with before | now
      · exact absurd free (Nat.not_lt.mpr (quiet (.inl before)).1)
      · exact absurd (List.mem_singleton.mp now).symm turn_not_threw
    · rw [turn_settled] at settled
      exact absurd free (Nat.not_lt.mpr (quiet (.inr settled)).1)
  · have runs := running_ne (List.mem_of_getElem? found)
    rintro (threw | settled)
    · rcases List.mem_or_eq_of_mem_set threw with before | now
      · exact absurd (quiet (.inl before)).2 runs
      · exact absurd now.symm turn_not_threw
    · rw [turn_settled, ended.settled] at settled
      exact absurd (quiet (.inr settled)).2 runs
  · intro _
    obtain ⟨full, only⟩ := alone
    have others : (p.tasks.set w .threw).countP Worker.isRunning + 1 = p.running + 0 :=
      countP_set_running (t := .threw) found
    refine ⟨by rwa [List.length_set], ?_⟩
    rw [only] at others
    exact Nat.succ.inj others
  · intro _
    refine ⟨full, ?_⟩
    rcases last with threw | all
    · exact (quiet (.inl threw)).2
    · refine List.countP_eq_zero.mpr fun t mem => ?_
      rw [all t mem]
      exact Bool.false_ne_true

/-- What is asked of a pool that has come this far: it has called `work` at most once with each
index, and with all of them at the end if no task throws; so many tasks at most run, and none once
it has settled; it comes to an end. -/
structure Serves (total workers : Nat) (onProgress : Bool) (log : List (PoolState × PoolStep))
    (p : PoolState) : Prop where
  once : p.started.Nodup ∧ ∀ i ∈ p.started, i < total
  every : .threw ∉ p.tasks → (p.settled.isSome = true ∨
    ∀ a, p.step total workers onProgress a = none) → ∀ i < total, i ∈ p.started
  limit : p.running ≤ workers
  settles : p.settled.isSome = true → p.running = 0
  ends : log.length ≤ concurrency total workers + total + 1

/-- Where nothing runs and no task has thrown, all workers have returned. -/
theorem returned_of_still (unthrown : .threw ∉ p.tasks) (still : p.running = 0) :
    ∀ t ∈ p.tasks, t = .returned := by
  intro t mem
  cases t with
  | returned => rfl
  | threw => exact absurd mem unthrown
  | running i => exact absurd still (running_ne mem)

/-- Where no step is left and no task has thrown, all workers have returned. -/
theorem all_returned (unthrown : .threw ∉ p.tasks)
    (last : ∀ a, p.step total workers onProgress a = none) :
    concurrency total workers ≤ p.tasks.length ∧ ∀ t ∈ p.tasks, t = .returned := by
  have full : ¬p.tasks.length < concurrency total workers := by
    intro free
    have more := last .start
    simp [PoolState.step, free] at more
  refine ⟨Nat.le_of_not_lt full, returned_of_still unthrown ?_⟩
  refine List.countP_eq_zero.mpr fun t mem runs => ?_
  cases t with
  | returned => cases runs
  | threw => cases runs
  | running i =>
    obtain ⟨w, found⟩ := List.mem_iff_getElem?.mp mem
    have more := last (.fulfill w)
    simp [PoolState.step, full, found] at more

/-- For every number of tasks and of workers, in any order of what happens: if each task that throws
throws alone, the pool serves. -/
theorem runPool_serves (counted : total ≤ 2 ^ 53) (given : 1 ≤ workers ∨ total = 0)
    (run : Run (PoolState.step total workers onProgress) .init log p)
    (alone : ∀ e ∈ log, Alone total workers e.1 e.2) :
    Serves total workers onProgress log p := by
  have kept := Kept.run counted run
  have quiet : Quiet total workers p :=
    run.invariant_of (Quiet total workers) (Alone total workers) nofun
      (fun _ _ _ quiet alone h => quiet.step alone h) alone
  have all := kept.accounted
  have few := kept.started_le
  refine ⟨?_, fun unthrown last i inside => ?_, ?_, fun settled => ?_, ?_⟩
  · rw [kept.inTurn]
    refine ⟨List.nodup_range, fun i mem => ?_⟩
    exact Nat.lt_of_lt_of_le (List.mem_range.mp mem) (Nat.min_le_right _ _)
  · obtain ⟨full, returned⟩ : concurrency total workers ≤ p.tasks.length ∧
        ∀ t ∈ p.tasks, t = .returned := by
      rcases last with settled | stuck
      · obtain ⟨full, still⟩ := quiet (.inr settled)
        exact ⟨full, returned_of_still unthrown still⟩
      · exact all_returned unthrown stuck
    have over' : total ≤ p.next := by
      obtain ⟨t, mem⟩ := List.exists_mem_of_length_pos
        (Nat.lt_of_lt_of_le (Nat.le_max_left 1 _) full)
      exact kept.returned (returned t mem ▸ mem)
    rw [kept.inTurn, Nat.min_eq_right over']
    exact List.mem_range.mpr inside
  · rcases given with some' | none
    · calc p.running ≤ p.tasks.length := List.countP_le_length
        _ ≤ concurrency total workers := kept.spawned
        _ ≤ workers := Nat.max_le.mpr ⟨some', Nat.min_le_left _ _⟩
    · omega
  · exact (quiet (.inr settled)).2
  · have once : p.settled.toList.length ≤ 1 := Option.length_toList_le
    have spawned := kept.spawned
    rw [run_length counted run]
    omega

/-- Three tasks for two workers, of which the last throws when the others are done. -/
theorem runPool_serves_script : ∃ log p, Run (PoolState.step 3 2 true) .init log p ∧
    (.threw ∈ p.tasks ∧ p.settled = some .rejected) ∧ Serves 3 2 true log p := by
  obtain ⟨log, p, run, alone, reached⟩ := @run_of_exec_any _ _
    (PoolState.step 3 2 true) [.start, .start, .fulfill 1, .fulfill 0, .throws 1, .settle] .init
    (fun log p => (∀ e ∈ log, Alone 3 2 e.1 e.2) ∧ .threw ∈ p.tasks ∧ p.settled = some .rejected)
    _ (by decide +kernel)
  exact ⟨log, p, run, reached, runPool_serves (by decide) (.inl (by decide)) run alone⟩

/-- Once a task has thrown, the pool may be rejected at any time, whatever else runs: no weaker
condition on what throws would do. -/
theorem rejected_any_time (full : concurrency total workers ≤ p.tasks.length)
    (unsettled : p.settled = none) (threw : .threw ∈ p.tasks) :
    ∃ q, p.step total workers onProgress .settle = some q ∧ q.settled = some .rejected ∧
      q.running = p.running := by
  have enabled : ¬(p.tasks.length < concurrency total workers ∨ p.settled.isSome = true) := by
    rintro (free | settled)
    · exact absurd full (Nat.not_le.mpr free)
    · rw [unsettled] at settled
      cases settled
  refine ⟨{ p with settled := some .rejected }, ?_, rfl, rfl⟩
  rw [PoolState.step, if_neg enabled, if_pos threw]

/-- If one of two tasks throws while the other runs, the pool is rejected before that is done. -/
theorem rejected_while_running : ∃ log p,
    Run (PoolState.step 2 2 false) .init log p ∧ ¬Serves 2 2 false log p := by
  obtain ⟨log, p, run, settled, runs⟩ := @run_of_exec_any _ _ (PoolState.step 2 2 false)
    [.start, .start, .throws 0, .settle] .init
    (fun _ p => p.settled.isSome = true ∧ p.running = 1) _ (by decide +kernel)
  exact ⟨log, p, run, fun serves => absurd (runs.symm.trans (serves.settles settled)) (by decide)⟩

end

end Syrotp.Loadtest
