import Syrotp.Server.WorkerLoop
import Mathlib.Data.List.Basic

/-!
# The life of the worker's loop

Each start begins a loop that never ends and never doubles, whatever its ticks come to; one that was
started once is stopped by `stop`, for good.
-/

namespace Syrotp

namespace WorkerLoop

variable {w v : WorkerLoop} {a : LoopAct} {log : List (WorkerLoop × LoopAct)}

/-- A callback that is not through. -/
def isOpen (r : Round) : Bool := r ≠ .through

/-- The timers that are set and the callbacks that are not through. -/
def live (w : WorkerLoop) : Nat := w.armed.length + w.rounds.countP isOpen

def isStart (e : WorkerLoop × LoopAct) : Bool := e.2 = .start

/-! ## One tick at a time -/

/-- `running` tells whether there is a tick. -/
def Exact (w : WorkerLoop) : Prop := w.rounds.count .ticking = if w.running then 1 else 0

/-- A callback that goes on takes the place of the one it was. -/
theorem countP_set_at {rounds : List Round} {i : Nat} {r : Round} (p : Round → Bool)
    (at' : rounds[i]? = some r) (r' : Round) :
    (rounds.set i r').countP p + (if p r then 1 else 0) =
      rounds.countP p + if p r' then 1 else 0 := by
  obtain ⟨inside, rfl⟩ := List.getElem?_eq_some_iff.mp at'
  have counted : (if p rounds[i] then 1 else 0) ≤ rounds.countP p :=
    List.boole_getElem_le_countP inside
  rw [List.countP_set inside]
  omega

theorem scheduleNext_rounds (w : WorkerLoop) : w.scheduleNext.rounds = w.rounds := by
  unfold scheduleNext
  split <;> rfl

theorem scheduleNext_running (w : WorkerLoop) : w.scheduleNext.running = w.running := by
  unfold scheduleNext
  split <;> rfl

theorem start_rounds (w : WorkerLoop) : w.start.rounds = w.rounds := by
  unfold start
  split
  · rfl
  · exact scheduleNext_rounds _

theorem start_running (w : WorkerLoop) : w.start.running = w.running := by
  unfold start
  split
  · rfl
  · exact scheduleNext_running _

/-- A step, by what it is. -/
theorem step_cases (h : w.step a = some v) :
    (a = .start ∧ v = w.start) ∨
      (∃ timer, a = .fire timer ∧ timer ∈ w.armed ∧
        v = runOnce { w with armed := w.armed.erase timer }) ∨
      (∃ i, a = .settle i ∧ w.rounds[i]? = some .ticking ∧
        v = { w with running := false, rounds := w.rounds.set i .returned }) ∨
      (∃ i, a = .follow i ∧ w.rounds[i]? = some .returned ∧
        v = scheduleNext { w with rounds := w.rounds.set i .through }) ∨
      (a = .stop ∧ v = w.stop) ∨
      ∃ i, a = .look i ∧ w.stops[i]? = some false ∧
        v = { w with stops := w.stops.set i (!w.running) } := by
  cases a with
  | start => exact .inl ⟨rfl, (Option.some.inj h).symm⟩
  | fire timer =>
    obtain ⟨set, same⟩ := Option.ite_none_right_eq_some.mp h
    exact .inr (.inl ⟨timer, rfl, set, (Option.some.inj same).symm⟩)
  | settle i =>
    obtain ⟨at', same⟩ := Option.ite_none_right_eq_some.mp h
    exact .inr (.inr (.inl ⟨i, rfl, at', (Option.some.inj same).symm⟩))
  | follow i =>
    obtain ⟨at', same⟩ := Option.ite_none_right_eq_some.mp h
    exact .inr (.inr (.inr (.inl ⟨i, rfl, at', (Option.some.inj same).symm⟩)))
  | stop => exact .inr (.inr (.inr (.inr (.inl ⟨rfl, (Option.some.inj h).symm⟩))))
  | look i =>
    obtain ⟨at', same⟩ := Option.ite_none_right_eq_some.mp h
    exact .inr (.inr (.inr (.inr (.inr ⟨i, rfl, at', (Option.some.inj same).symm⟩))))

theorem Exact.step (exact : w.Exact) (h : w.step a = some v) : v.Exact := by
  unfold Exact at exact ⊢
  obtain ⟨-, rfl⟩ | ⟨timer, -, -, rfl⟩ | ⟨i, -, at', rfl⟩ | ⟨i, -, at', rfl⟩ | ⟨-, rfl⟩ |
    ⟨i, -, -, rfl⟩ := step_cases h
  · rw [start_rounds, start_running]
    exact exact
  · unfold runOnce
    by_cases running : w.running = true
    · simpa [running] using exact
    · simpa [running] using exact
  · have counted := countP_set_at (· == .ticking) at' .returned
    simp only [beq_iff_eq, if_true, reduceCtorEq, if_false] at counted
    simp only [List.count, Bool.false_eq_true, if_false] at exact ⊢
    by_cases running : w.running = true
    · rw [if_pos running] at exact
      omega
    · rw [if_neg running] at exact
      omega
  · have counted := countP_set_at (· == .ticking) at' .through
    rw [scheduleNext_rounds, scheduleNext_running]
    simp only [beq_iff_eq, reduceCtorEq, if_false] at counted
    simp only [List.count] at exact ⊢
    omega
  · exact exact
  · exact exact

/-! ## As many loops as starts -/

theorem live_runOnce (w : WorkerLoop) : w.runOnce.live = w.live + 1 := by
  unfold runOnce live
  by_cases running : w.running = true
  · simp [running, isOpen]
    omega
  · simp [running, isOpen]
    omega

theorem live_scheduled (on : w.stopped = false) : w.scheduleNext.live = w.live + 1 := by
  unfold scheduleNext live
  simp only [on, Bool.false_eq_true, if_false, List.length_append, List.length_singleton]
  omega

theorem live_unscheduled (off : w.stopped = true) : w.scheduleNext.live = w.live := by
  unfold scheduleNext
  rw [if_pos off]

theorem live_erase {timer : Nat} (set : timer ∈ w.armed) :
    live { w with armed := w.armed.erase timer } + 1 = w.live := by
  have length := List.length_erase_of_mem set
  have positive := List.length_pos_of_mem set
  simp only [live]
  omega

theorem live_set {i : Nat} {r : Round} (at' : w.rounds[i]? = some r) (r' : Round) (running : Bool) :
    live { w with running := running, rounds := w.rounds.set i r' } +
      (if isOpen r then 1 else 0) = w.live + if isOpen r' then 1 else 0 := by
  have counted := countP_set_at isOpen at' r'
  simp only [live]
  omega

theorem length_stop (w : WorkerLoop) : w.stop.live ≤ w.live := by
  unfold stop live
  cases w.timer with
  | none => simp
  | some timer =>
    have shorter := List.length_erase_le (a := timer) (l := w.armed)
    simp only [Option.elim_some]
    omega

/-- What a step makes of the number of loops. -/
theorem live_step (h : w.step a = some v) :
    v.live ≤ w.live + (if a = .start then 1 else 0) ∧
      (a ≠ .stop → w.stopped = false → w.enabled = true →
        v.stopped = false ∧ v.enabled = true ∧ v.live = w.live + if a = .start then 1 else 0) := by
  obtain ⟨rfl, rfl⟩ | ⟨timer, rfl, set, rfl⟩ | ⟨i, rfl, at', rfl⟩ | ⟨i, rfl, at', rfl⟩ |
    ⟨rfl, rfl⟩ | ⟨i, rfl, -, rfl⟩ := step_cases h
  · unfold start
    by_cases enabled : w.enabled = true
    · have one := live_scheduled (w := { w with stopped := false }) rfl
      simp only [enabled, Bool.not_true, Bool.false_eq_true, if_false, if_true]
      refine ⟨Nat.le_of_eq one, ?_⟩
      intro _ _ _
      refine ⟨?_, ?_, one⟩
      · simp [scheduleNext]
      · simp [scheduleNext]
    · simp only [enabled, Bool.not_false, if_true]
      refine ⟨Nat.le_add_right _ _, ?_⟩
      intro _ _ on
      exact absurd on (by simp)
  · have fewer := live_erase set
    have more := live_runOnce { w with armed := w.armed.erase timer }
    simp only [reduceCtorEq, if_false]
    refine ⟨by omega, ?_⟩
    intro _ off on
    refine ⟨?_, ?_, by omega⟩
    · unfold runOnce
      split <;> exact off
    · unfold runOnce
      split <;> exact on
  · have same := live_set at' .returned false
    simp only [isOpen, ne_eq, reduceCtorEq, not_false_eq_true, decide_true, if_true] at same
    simp only [reduceCtorEq, if_false]
    refine ⟨by omega, ?_⟩
    intro _ off on
    exact ⟨off, on, by omega⟩
  · have fewer := live_set at' .through w.running
    simp only [isOpen, ne_eq, reduceCtorEq, not_false_eq_true, decide_true, if_true,
      not_true_eq_false, decide_false, Bool.false_eq_true, if_false] at fewer
    simp only [reduceCtorEq, if_false]
    constructor
    · by_cases stopped : w.stopped = true
      · have next := live_unscheduled (w := { w with rounds := w.rounds.set i .through }) stopped
        omega
      · rw [Bool.not_eq_true] at stopped
        have next := live_scheduled (w := { w with rounds := w.rounds.set i .through }) stopped
        omega
    · intro _ off on
      have next := live_scheduled (w := { w with rounds := w.rounds.set i .through }) off
      refine ⟨?_, ?_, by omega⟩
      · simp [scheduleNext, off]
      · simp [scheduleNext, off, on]
  · refine ⟨Nat.le_trans (length_stop w) (Nat.le_add_right _ _), ?_⟩
    intro other
    exact absurd rfl other
  · simp only [reduceCtorEq, if_false]
    refine ⟨Nat.le_refl _, ?_⟩
    intro _ off on
    exact ⟨off, on, rfl⟩

/-! ## The end of a loop -/

/-- There is one loop at most, and its timer is the one that `stop` clears. -/
structure Sole (w : WorkerLoop) : Prop where
  one : w.live ≤ 1
  timed : ∀ timer ∈ w.armed, w.timer = some timer

theorem timed_scheduled (one : w.scheduleNext.live ≤ 1)
    (timed : ∀ timer ∈ w.armed, w.timer = some timer) :
    ∀ timer ∈ w.scheduleNext.armed, w.scheduleNext.timer = some timer := by
  by_cases stopped : w.stopped = true
  · unfold scheduleNext
    rw [if_pos stopped]
    exact timed
  · rw [Bool.not_eq_true] at stopped
    rw [live_scheduled stopped] at one
    have none : w.armed = [] := by
      apply List.eq_nil_of_length_eq_zero
      unfold live at one
      omega
    simp [scheduleNext, stopped, none]

theorem Sole.armed_stop (sole : w.Sole) : w.stop.armed = [] := by
  have short : w.armed.length ≤ 1 := by
    have one := sole.one
    unfold live at one
    omega
  cases armed : w.armed with
  | nil => cases timer : w.timer <;> simp [stop, armed, timer]
  | cons timer rest =>
    have cleared := sole.timed timer (by rw [armed]; exact List.mem_cons_self)
    obtain rfl : rest = [] := by
      rw [armed, List.length_cons] at short
      exact List.eq_nil_of_length_eq_zero (by omega)
    simp [stop, armed, cleared]

theorem Sole.step (sole : w.Sole) (h : w.step a = some v) (one : v.live ≤ 1) : v.Sole := by
  refine ⟨one, ?_⟩
  obtain ⟨-, rfl⟩ | ⟨timer, -, -, rfl⟩ | ⟨i, -, -, rfl⟩ | ⟨i, -, -, rfl⟩ | ⟨-, rfl⟩ |
    ⟨i, -, -, rfl⟩ := step_cases h
  · unfold start at one ⊢
    by_cases enabled : w.enabled = true
    · simp only [enabled, Bool.not_true, Bool.false_eq_true, if_false] at one ⊢
      exact timed_scheduled one sole.timed
    · simp only [enabled, Bool.not_false, if_true]
      exact sole.timed
  · intro other mem
    have mem : other ∈ w.armed.erase timer := by
      unfold runOnce at mem
      split at mem <;> exact mem
    have set := sole.timed other (List.mem_of_mem_erase mem)
    unfold runOnce
    split <;> exact set
  · exact sole.timed
  · exact timed_scheduled one sole.timed
  · rw [sole.armed_stop]
    simp
  · exact sole.timed

/-- It was stopped, no timer is set, and if the call of `stop` at this place is resolved there is no
tick. -/
structure Ended (k : Nat) (w : WorkerLoop) : Prop where
  stopped : w.stopped = true
  armed : w.armed = []
  called : k < w.stops.length
  quiet : w.stops[k]? = some true → w.running = false

/-- That stays so until it is started again, and no timer fires. -/
theorem Ended.step {k : Nat} (ended : w.Ended k) (other : a ≠ .start) (h : w.step a = some v) :
    v.Ended k ∧ ∀ timer, a ≠ .fire timer := by
  obtain ⟨rfl, -⟩ | ⟨timer, -, set, -⟩ | ⟨i, rfl, -, rfl⟩ | ⟨i, rfl, -, rfl⟩ | ⟨rfl, rfl⟩ |
    ⟨i, rfl, -, rfl⟩ := step_cases h
  · exact absurd rfl other
  · rw [ended.armed] at set
    cases set
  · exact ⟨⟨ended.stopped, ended.armed, ended.called, fun _ => rfl⟩, by simp⟩
  · have same : scheduleNext { w with rounds := w.rounds.set i .through } =
        { w with rounds := w.rounds.set i .through } := if_pos ended.stopped
    rw [same]
    exact ⟨⟨ended.stopped, ended.armed, ended.called, ended.quiet⟩, by simp⟩
  · refine ⟨⟨rfl, ?_, ?_, ?_⟩, by simp⟩
    · cases timer : w.timer <;> simp [stop, ended.armed, timer]
    · simpa [stop] using Nat.lt_succ_of_lt ended.called
    · intro resolved
      apply ended.quiet
      simpa [stop, List.getElem?_append_left ended.called] using resolved
  · refine ⟨⟨ended.stopped, ended.armed, by simpa using ended.called, ?_⟩, by simp⟩
    intro resolved
    by_cases mine : i = k
    · subst mine
      simpa [ended.called] using resolved
    · exact ended.quiet (by simpa [List.getElem?_set_ne mine] using resolved)

/-- What a run has of loops: none but those it started. -/
theorem live_run {s t : WorkerLoop} (run : Run WorkerLoop.step s log t) :
    t.live ≤ s.live + log.countP isStart := by
  induction run with
  | start => exact Nat.le_add_right _ _
  | @next log q u a _ hs ih =>
    have more := (live_step hs).1
    have counted : [(q, a)].countP isStart = if a = .start then 1 else 0 := by
      simp [isStart, List.countP_cons]
    rw [List.countP_append, counted]
    omega

theorem sole_run {enabled : Bool} {t : WorkerLoop} (run : Run WorkerLoop.step (.new enabled) log t)
    (once : log.countP isStart ≤ 1) : t.Sole := by
  induction run with
  | start => exact ⟨by simp [live, WorkerLoop.new], by simp [WorkerLoop.new]⟩
  | @next log q u a before hs ih =>
    rw [List.countP_append] at once
    have sole := ih (by omega)
    have bound := live_run (before.next hs)
    rw [List.countP_append] at bound
    have fresh : (WorkerLoop.new enabled).live = 0 := rfl
    exact sole.step hs (by omega)

theorem ended_run {k : Nat} {s t : WorkerLoop} (run : Run WorkerLoop.step s log t)
    (ended : s.Ended k) (left : ∀ e ∈ log, isStart e = false) :
    t.Ended k ∧ ∀ e ∈ log, ∀ timer, e.2 ≠ .fire timer := by
  induction run with
  | start => exact ⟨ended, by simp⟩
  | @next log q u a _ hs ih =>
    obtain ⟨before, none⟩ := ih fun e he => left e (List.mem_append_left _ he)
    have last := left (q, a) (List.mem_append_right _ (List.mem_singleton_self _))
    obtain ⟨after, other⟩ := before.step (by simpa [isStart] using last) hs
    refine ⟨after, ?_⟩
    intro e he
    obtain old | new := List.mem_append.mp he
    · exact none e old
    · rw [List.mem_singleton.mp new]
      exact other

end WorkerLoop

/-- In every run there is a tick exactly while `running` says so, and never a second one. Until the
worker is stopped, each start has begun a loop of its own that goes on for ever: there is a timer
set or a callback open for it. Of a worker that was started once, a `stop` leaves no timer, none
fires until it is started again, and no tick is underway once that call is resolved. -/
theorem worker_loop (enabled : Bool) {log : List (WorkerLoop × LoopAct)} {t : WorkerLoop}
    (run : Run WorkerLoop.step (.new enabled) log t) :
    (t.rounds.count .ticking = if t.running then 1 else 0) ∧
    (enabled = true → (∀ e ∈ log, e.2 ≠ .stop) →
      t.armed.length + t.rounds.countP WorkerLoop.isOpen = log.countP WorkerLoop.isStart) ∧
    ∀ earlier q later, log = earlier ++ (q, .stop) :: later →
      earlier.countP WorkerLoop.isStart ≤ 1 →
      (∀ e ∈ later, WorkerLoop.isStart e = false) → t.armed = [] ∧
        (∀ e ∈ later, ∀ timer, e.2 ≠ .fire timer) ∧
        (t.stops[q.stops.length]? = some true → t.running = false) := by
  refine ⟨?_, ?_, ?_⟩
  · exact run.invariant (I := WorkerLoop.Exact) rfl fun _ _ _ exact hs => exact.step hs
  · intro on going
    have counted : t.stopped = false ∧ t.enabled = true ∧
        t.live = log.countP WorkerLoop.isStart := by
      induction run with
      | start => exact ⟨rfl, on, rfl⟩
      | @next log q u a _ hs ih =>
        obtain ⟨off, on, live⟩ := ih fun e he => going e (List.mem_append_left _ he)
        have last := going (q, a) (List.mem_append_right _ (List.mem_singleton_self _))
        obtain ⟨off, on, more⟩ := (WorkerLoop.live_step hs).2 last off on
        refine ⟨off, on, ?_⟩
        rw [more, live, List.countP_append]
        simp [WorkerLoop.isStart, List.countP_cons]
    exact counted.2.2
  · intro earlier q later split once left
    obtain ⟨v, before, hs, after⟩ := run.split_at split
    cases hs
    have sole := WorkerLoop.sole_run before once
    have ended : q.stop.Ended q.stops.length := by
      refine ⟨rfl, sole.armed_stop, by simp [WorkerLoop.stop], ?_⟩
      simp [WorkerLoop.stop]
    obtain ⟨last, none⟩ := WorkerLoop.ended_run after ended left
    exact ⟨last.armed, none, last.quiet⟩

namespace WorkerLoopScript

/-- It is started, and stopped during its first tick. -/
def acts : List LoopAct := [.start, .fire 0, .stop, .settle 0, .look 0, .follow 0]

theorem shown : ∃ log t, Run WorkerLoop.step (.new true) log t ∧
    (log.map (·.2) = acts ∧ (log.take 2).countP WorkerLoop.isStart ≤ 1 ∧
      (∀ e ∈ log.drop 3, WorkerLoop.isStart e = false) ∧
      log[2]?.map (·.1.stops.length) = some 0 ∧ t.stops[0]? = some true ∧ t.rounds = [.through]) :=
  @run_of_exec_any _ _ _ acts _ _ _ (by decide +kernel)

end WorkerLoopScript

theorem worker_loop_script : ∃ log t, Run WorkerLoop.step (.new true) log t ∧
    t.rounds = [.through] ∧ t.armed = [] ∧ t.running = false := by
  obtain ⟨log, t, run, acts, once, left, first, resolved, through⟩ := WorkerLoopScript.shown
  refine ⟨log, t, run, through, ?_⟩
  obtain ⟨e, more, rfl, -, acts⟩ := List.map_eq_cons_iff.mp acts
  obtain ⟨f, more, rfl, -, acts⟩ := List.map_eq_cons_iff.mp acts
  obtain ⟨⟨q, a⟩, later, rfl, stopped, -⟩ := List.map_eq_cons_iff.mp acts
  cases stopped
  obtain ⟨unset, -, quiet⟩ := (worker_loop true run).2.2 [e, f] q later rfl once left
  have none : q.stops.length = 0 := by simpa using first
  rw [none] at quiet
  exact ⟨unset, quiet resolved⟩

end Syrotp
