import Syrotp.Misc.Decimal
import Syrotp.Misc.Windows
import Syrotp.Server.RateLimit

/-!
# How many requests pass

While a window lasts its counter does not expire, since its TTL is the width of the window and runs
from a moment inside it. So the counter numbers the checks of the window one after the other, and
those with a number above the limit are refused.
-/

namespace Syrotp

variable {redis : Counters} {key key' : Text} {now : Time} {r : RateRequest} {width : Nat}

/-! ## Keys of counters -/

theorem colon_not_mem_ofInt (n : ℕ) : (58 : UInt16) ∉ Text.ofInt n := by
  rw [Text.ofInt_nat]
  intro colon
  exact absurd (Text.isDigit_of_mem_digits colon) (by decide)

/-- What follows the last separator and what precedes it are determined. -/
theorem append_separator_inj {a b s t : Text} {c : UInt16} (hs : c ∉ s) (ht : c ∉ t)
    (same : a ++ c :: s = b ++ c :: t) : a = b ∧ s = t := by
  have reversed := congrArg List.reverse same
  simp only [List.reverse_append, List.reverse_cons, List.append_assoc, List.singleton_append]
    at reversed
  have hs' : c ∉ s.reverse := by rwa [List.mem_reverse]
  have ht' : c ∉ t.reverse := by rwa [List.mem_reverse]
  have suffix : s.reverse = t.reverse := by
    have left := congrArg (List.takeWhile (· ≠ c)) reversed
    have whole : ∀ u v : Text, c ∉ u → (u ++ c :: v).takeWhile (· ≠ c) = u := by
      intro u v hu
      rw [List.takeWhile_append_of_pos]
      · simp
      · intro d hd
        have differs : d ≠ c := fun equal => hu (equal ▸ hd)
        simp [differs]
    rwa [whole _ _ hs', whole _ _ ht'] at left
  rw [suffix, List.append_cancel_left_eq, List.cons_eq_cons] at reversed
  exact ⟨List.reverse_injective reversed.2, List.reverse_injective suffix⟩

/-- Counters of different keys or windows are different counters. -/
theorem bucket_inj {i j : ℕ} (same : bucket key i = bucket key' j) : key = key' ∧ i = j := by
  have colon : text ":" = [58] := by decide
  rw [bucket, bucket, colon, List.append_assoc _ [58], List.append_assoc _ [58],
    List.singleton_append, List.singleton_append] at same
  obtain ⟨keys, numbers⟩ := append_separator_inj (colon_not_mem_ofInt i) (colon_not_mem_ofInt j) same
  exact ⟨List.append_cancel_left keys, Int.ofNat_inj.mp (Text.ofInt_injective numbers)⟩

/-! ## The pipeline -/

@[simp] theorem set_same (c : Counter) : redis.set key c key = some c := if_pos rfl

theorem set_other {c : Counter} (differs : key' ≠ key) : redis.set key c key' = redis key' :=
  if_neg differs

theorem get_missing (missing : redis key = none) : redis.get key now = none := by
  rw [Counters.get, missing, Option.filter_none]

theorem get_live {c : Counter} (held : redis key = some c) (live : c.live now = true) :
    redis.get key now = some c := by
  rw [Counters.get, held, Option.filter_some, if_pos live]

theorem incr_other (differs : key' ≠ key) : (incr redis key now).2 key' = redis key' := by
  unfold incr
  split <;> exact set_other differs

theorem expireNX_other {seconds : ℕ} (differs : key' ≠ key) :
    expireNX redis key seconds now key' = redis key' := by
  unfold expireNX
  rcases redis.get key now with _ | ⟨value, _ | expires⟩
  · rfl
  · exact set_other differs
  · rfl

/-- Other counters are left alone. -/
theorem pipeline_other (differs : key ≠ bucket r.key (windowIndex r.windowSeconds now)) :
    (r.pipeline redis now).2 key = redis key :=
  (expireNX_other differs).trans (incr_other differs)

/-- The first check of a window starts its counter, for the width of the window from now on. -/
theorem pipeline_first (missing : redis (bucket r.key (windowIndex r.windowSeconds now)) = none) :
    (r.pipeline redis now).1 = 1 ∧
      (r.pipeline redis now).2 (bucket r.key (windowIndex r.windowSeconds now)) =
        some ⟨1, some (now + r.windowSeconds * 1000)⟩ := by
  unfold RateRequest.pipeline
  generalize bucket r.key (windowIndex r.windowSeconds now) = key at missing ⊢
  have started : redis.set key ⟨1, none⟩ key = some ⟨1, none⟩ := set_same _
  simp only [incr, get_missing missing, expireNX, get_live started rfl,
    set_same, and_self]

/-- A later one adds to it and leaves its expiry. -/
theorem pipeline_again {n expires : ℕ} (running : now < expires)
    (held : redis (bucket r.key (windowIndex r.windowSeconds now)) = some ⟨n, some expires⟩) :
    (r.pipeline redis now).1 = n + 1 ∧
      (r.pipeline redis now).2 (bucket r.key (windowIndex r.windowSeconds now)) =
        some ⟨n + 1, some expires⟩ := by
  have live : ∀ m, Counter.live now ⟨m, some expires⟩ = true := fun _ => decide_eq_true running
  unfold RateRequest.pipeline
  generalize bucket r.key (windowIndex r.windowSeconds now) = key at held ⊢
  have added : redis.set key ⟨n + 1, some expires⟩ key = some ⟨n + 1, some expires⟩ := set_same _
  simp only [incr, get_live held (live n), expireNX,
    get_live added (live (n + 1)), set_same, and_self]

/-! ## What the counter counts -/

abbrev RateLog := List (RateLimiter × RateAction)

/-- Whether a logged action is a check of the key. -/
def asks (key : Text) (e : RateLimiter × RateAction) : Bool :=
  match e.2 with
  | .tick _ => false
  | .rateCheck r _ => r.key = key

/-- Whether it is this check, and was allowed. -/
def passes (r : RateRequest) (e : RateLimiter × RateAction) : Bool :=
  (answered e).any fun a => a.1 = r && a.2.allowed

/-- The checks of the key in a window. -/
def checksIn (key : Text) (width i : Nat) (log : RateLog) : Nat :=
  log.countP fun e => asks key e && e.1.now / width == i

/-- The counter of a window that is not over holds the number of its checks, and does not expire
before the window is over. -/
def CountsWindow (key : Text) (width : Nat) (log : RateLog) (t : RateLimiter) (i : Nat) : Prop :=
  t.redis (bucket key i) = none ∧ checksIn key width i log = 0 ∨
    ∃ expires, t.redis (bucket key i) = some ⟨checksIn key width i log, some expires⟩ ∧
      (i + 1) * width ≤ expires

/-- All checks of the key are made with one window. -/
def OneWindow (key : Text) (windowSeconds : Nat) (log : RateLog) : Prop :=
  ∀ e ∈ log, ∀ r later, e.2 = .rateCheck r later → r.key = key → r.windowSeconds = windowSeconds

section

variable {log : RateLog} {s t : RateLimiter} {windowSeconds i : ℕ}

theorem checksIn_concat {e : RateLimiter × RateAction} :
    checksIn key width i (log ++ [e]) =
      checksIn key width i log + if asks key e && e.1.now / width == i then 1 else 0 := by
  rw [checksIn, List.countP_append, List.countP_singleton]
  rfl

/-- A window that is not over ends later than its counter was started. -/
theorem running_of_index (positive : 0 < windowSeconds) {expires : ℕ}
    (past : (windowIndex windowSeconds now + 1) * (windowSeconds * 1000) ≤ expires) :
    now < expires := by
  have width : 0 < windowSeconds * 1000 := Nat.mul_pos positive (by decide)
  have inside : now < (windowIndex windowSeconds now + 1) * (windowSeconds * 1000) :=
    Nat.lt_mul_of_div_lt (Nat.lt_succ_self _) width
  exact inside.trans_le past

/-- A check gets the next number of its window. -/
theorem CountsWindow.number (positive : 0 < r.windowSeconds)
    (h : CountsWindow r.key (r.windowSeconds * 1000) log t (windowIndex r.windowSeconds t.now)) :
    (r.pipeline t.redis t.now).1 =
      checksIn r.key (r.windowSeconds * 1000) (windowIndex r.windowSeconds t.now) log + 1 := by
  rcases h with ⟨missing, none⟩ | ⟨expires, held, past⟩
  · rw [none, (pipeline_first missing).1]
  · exact (pipeline_again (running_of_index positive past) held).1

/-- A check of the window keeps its counter right. -/
theorem CountsWindow.check {later : Time} (positive : 0 < r.windowSeconds)
    (h : CountsWindow r.key (r.windowSeconds * 1000) log t (windowIndex r.windowSeconds t.now)) :
    CountsWindow r.key (r.windowSeconds * 1000) (log ++ [(t, .rateCheck r later)])
      { t with redis := (r.pipeline t.redis t.now).2 } (windowIndex r.windowSeconds t.now) := by
  have one : checksIn r.key (r.windowSeconds * 1000) (windowIndex r.windowSeconds t.now)
      (log ++ [(t, .rateCheck r later)]) =
        checksIn r.key (r.windowSeconds * 1000) (windowIndex r.windowSeconds t.now) log + 1 := by
    rw [checksIn_concat]
    simp [asks, windowIndex]
  right
  rw [one]
  rcases h with ⟨missing, none⟩ | ⟨expires, held, past⟩
  · refine ⟨t.now + r.windowSeconds * 1000, ?_, ?_⟩
    · rw [none]
      exact (pipeline_first missing).2
    · rw [Nat.add_mul, Nat.one_mul]
      exact Nat.add_le_add_right (Nat.div_mul_le_self _ _) _
  · exact ⟨expires, (pipeline_again (running_of_index positive past) held).2, past⟩

/-- Any other check leaves it alone. -/
theorem CountsWindow.other {later : Time} (h : CountsWindow key width log t i)
    (differs : bucket key i ≠ bucket r.key (windowIndex r.windowSeconds t.now))
    (elsewhere : r.key = key → t.now / width ≠ i) :
    CountsWindow key width (log ++ [(t, .rateCheck r later)])
      { t with redis := (r.pipeline t.redis t.now).2 } i := by
  have none : checksIn key width i (log ++ [(t, .rateCheck r later)]) = checksIn key width i log := by
    rw [checksIn_concat]
    by_cases same : r.key = key
    · simp [elsewhere same]
    · simp [asks, same]
  have left : (r.pipeline t.redis t.now).2 (bucket key i) = t.redis (bucket key i) :=
    pipeline_other differs
  unfold CountsWindow
  simp only [none, left]
  exact h

/-- Wherever a run arrives, the counters of the windows that are not over are right. -/
theorem counted_run (positive : 0 < windowSeconds) (run : Run RateLimiter.step s log t)
    (empty : ∀ k, s.redis k = none) (one : OneWindow key windowSeconds log) :
    ∀ i, windowIndex windowSeconds t.now ≤ i → CountsWindow key (windowSeconds * 1000) log t i := by
  induction run with
  | start => exact fun i _ => .inl ⟨empty _, rfl⟩
  | @next log t u a _ step ih =>
    have before := ih fun e he => one e (List.mem_append_left _ he)
    intro i notOver
    cases a with
    | tick ms =>
      obtain rfl := Option.some.inj step
      have earlier : windowIndex windowSeconds t.now ≤ windowIndex windowSeconds (t.now + ms) :=
        Nat.div_le_div_right (Nat.le_add_right _ _)
      have same : checksIn key (windowSeconds * 1000) i (log ++ [(t, .tick ms)]) =
          checksIn key (windowSeconds * 1000) i log := by
        rw [checksIn_concat]
        simp [asks]
      unfold CountsWindow
      rw [same]
      exact before i (earlier.trans notOver)
    | rateCheck r later =>
      obtain rfl := Option.some.inj step
      by_cases own : r.key = key
      · have window := one (t, .rateCheck r later) (by simp) r later rfl own
        subst own window
        by_cases current : i = windowIndex r.windowSeconds t.now
        · rw [current]
          exact (before _ (Nat.le_refl _)).check positive
        · exact (before i notOver).other (fun same => current (bucket_inj same).2)
            fun _ => Ne.symm current
      · exact (before i notOver).other (fun same => own (bucket_inj same).1.symm)
          fun same => absurd same own

/-! ## The requests of a window -/

theorem passes_tick {ms : ℕ} : passes r (t, .tick ms) = false := rfl

theorem passes_check {asked : RateRequest} {later : Time} :
    passes r (t, .rateCheck asked later) = true ↔
      asked = r ∧ (asked.pipeline t.redis t.now).1 ≤ asked.limit := by
  simp [passes, answered, RateRequest.check]

theorem asks_of_passes {e : RateLimiter × RateAction} (h : passes r e = true) :
    asks r.key e = true := by
  obtain ⟨t, a⟩ := e
  cases a with
  | tick ms => exact absurd h (by rw [passes_tick]; exact Bool.false_ne_true)
  | rateCheck asked later => simp [asks, (passes_check.mp h).1]

/-- No more checks of a window are allowed than the limit: each has the next number. -/
theorem passes_window_le (positive : 0 < r.windowSeconds) (run : Run RateLimiter.step s log t)
    (empty : ∀ k, s.redis k = none) (one : OneWindow r.key r.windowSeconds log) (i : ℕ) :
    log.countP (fun e => passes r e && e.1.now / (r.windowSeconds * 1000) == i) ≤ r.limit := by
  induction run with
  | start => exact Nat.zero_le _
  | @next log t u a run _ ih =>
    have before : OneWindow r.key r.windowSeconds log := fun e he => one e (List.mem_append_left _ he)
    have sub : ∀ e : RateLimiter × RateAction,
        (passes r e && e.1.now / (r.windowSeconds * 1000) == i) = true →
          (asks r.key e && e.1.now / (r.windowSeconds * 1000) == i) = true := by
      intro e h
      rw [Bool.and_eq_true] at h ⊢
      exact ⟨asks_of_passes h.1, h.2⟩
    apply countP_concat_le sub (ih before)
    intro h
    rw [Bool.and_eq_true, beq_iff_eq] at h
    obtain ⟨passed, rfl⟩ := h
    cases a with
    | tick ms => exact absurd passed (by rw [passes_tick]; exact Bool.false_ne_true)
    | rateCheck asked later =>
      obtain ⟨rfl, within⟩ := passes_check.mp passed
      have counted := counted_run positive run empty before _ (Nat.le_refl _)
      rw [counted.number positive] at within
      exact within

/-- What a limit promises of the checks in a log that ends at `t`. -/
structure RateBound (r : RateRequest) (log : RateLog) (t : RateLimiter) : Prop where
  window : ∀ i, log.countP (fun e => passes r e && windowIndex r.windowSeconds e.1.now == i) ≤
    r.limit
  interval : ∀ start, log.countP (fun e => passes r e &&
    (start ≤ e.1.now && e.1.now < start + r.windowSeconds * 1000)) ≤ 2 * r.limit
  /-- The count of a window is not lost before the window is over. -/
  count : ∀ i, windowIndex r.windowSeconds t.now ≤ i →
    (t.redis.get (bucket r.key i) t.now).elim 0 (·.value) =
      log.countP fun e => asks r.key e && windowIndex r.windowSeconds e.1.now == i

/-- From an empty Redis on, whatever the order of the checks of all instances, at most `limit` checks
of a key pass in each window, at most twice as many in any interval of its width, and Redis counts
all of them until the window is over. -/
theorem rate_limit (run : Run RateLimiter.step s log t) (empty : ∀ k, s.redis k = none)
    (positive : 0 < r.windowSeconds) (one : OneWindow r.key r.windowSeconds log) :
    RateBound r log t := by
  have bound := passes_window_le positive run empty one
  refine ⟨bound, ?_, ?_⟩
  · exact countP_interval_le (Nat.mul_pos positive (by decide)) bound
  · intro i notOver
    rcases counted_run positive run empty one i notOver with ⟨missing, none⟩ | ⟨expires, held, past⟩
    · rw [get_missing missing]
      exact none.symm
    · have running : t.now < expires :=
        running_of_index positive ((Nat.mul_le_mul_right _ (Nat.succ_le_succ notOver)).trans past)
      rw [get_live held (decide_eq_true running)]
      rfl

end

namespace RateScript

def request : RateRequest := ⟨text "start:ip:192.0.2.1", 2, 60⟩

/-- Three checks in a window, and one of another key. -/
def actions : List RateAction :=
  [.rateCheck request 59000, .rateCheck ⟨text "start:app:app_1", 1, 60⟩ 59000, .tick 900,
    .rateCheck request 59900, .rateCheck request 59901]

def fresh : RateLimiter := ⟨59000, fun _ => none⟩

def result := exec RateLimiter.step fresh actions

def oneWindow (key : Text) (windowSeconds : Nat) (log : RateLog) : Bool :=
  log.all fun e => match e.2 with
    | .tick _ => true
    | .rateCheck r _ => r.key ≠ key || r.windowSeconds = windowSeconds

theorem oneWindow_of_check {key : Text} {windowSeconds : ℕ} {log : RateLog}
    (h : oneWindow key windowSeconds log = true) : OneWindow key windowSeconds log := by
  intro e he r later asked own
  have checked := List.all_eq_true.mp h e he
  simpa [asked, own] using checked

end RateScript

/-- Two of the three pass. -/
theorem rate_limit_script : ∃ log t, RateBound RateScript.request log t ∧
    log.countP (passes RateScript.request) = 2 := by
  have run : exec RateLimiter.step RateScript.fresh RateScript.actions = some
      ((RateScript.result.get (by rfl)).1, (RateScript.result.get (by rfl)).2) := rfl
  exact ⟨_, _, rate_limit (run_of_exec run) (fun _ => rfl) (by decide)
    (RateScript.oneWindow_of_check (by decide +kernel)), by decide +kernel⟩

end Syrotp
