import Syrotp.Sdk.Waiting

/-!
# The last poll

The Python SDK polls once more at the deadline. The JavaScript SDK looks at the clock before each
poll and never polls at the deadline, so a status that becomes visible after its last poll is lost,
and its timeout error says nothing about the verification at the deadline.
-/

namespace Syrotp.Sdk

variable {timeline : Timeline} {slept interval : ℕ+} {deadline now : Nat}

/-- What both SDKs are to do: the same, which is to return the status of a poll that finds one no
later than the deadline, and to give up only after a poll at the deadline or later. -/
structure Wait.Agrees (w : Wait) : Prop where
  same : w.js.2 = w.py.2
  visible : ∀ r ∈ [w.js, w.py], ∀ t ∈ r.1, t ≤ w.timeoutMs → w.timeline t ≠ .pending →
    r.2 = .status (w.timeline t)
  seen : ∀ r ∈ [w.js, w.py], ∀ s, r.2 = .status s → s ≠ .pending ∧ ∃ t ∈ r.1, w.timeline t = s
  late : ∀ r ∈ [w.js, w.py], r.2 = .timedOut →
    ∃ t ∈ r.1, (w.timeoutMs : Nat) ≤ t ∧ w.timeline t = .pending

/-! ## The loops -/

/-- A poll that finds a terminal status is the last. -/
theorem jsLoop_visible {t : Nat} (here : t ∈ (jsLoop timeline slept deadline now).1)
    (terminal : timeline t ≠ .pending) :
    (jsLoop timeline slept deadline now).2 = .status (timeline t) := by
  fun_induction jsLoop timeline slept deadline now with
  | case1 now early found =>
    obtain rfl := List.mem_singleton.mp here
    rfl
  | case2 now early open' rest ih =>
    rcases List.mem_cons.mp here with rfl | later
    · exact absurd terminal open'
    · exact ih later
  | case3 now late => exact absurd here List.not_mem_nil

theorem jsLoop_seen {s : VerificationStatus}
    (ends : (jsLoop timeline slept deadline now).2 = .status s) :
    s ≠ .pending ∧ ∃ t ∈ (jsLoop timeline slept deadline now).1, timeline t = s := by
  fun_induction jsLoop timeline slept deadline now with
  | case1 now early found =>
    obtain rfl := Waited.status.inj ends
    exact ⟨found, now, List.mem_singleton_self now, rfl⟩
  | case2 now early open' rest ih =>
    obtain ⟨terminal, t, here, same⟩ := ih ends
    exact ⟨terminal, t, List.mem_cons_of_mem now here, same⟩
  | case3 now late => exact nomatch ends

/-- The JavaScript SDK does not poll at the deadline. -/
theorem jsLoop_early {t : Nat} (here : t ∈ (jsLoop timeline slept deadline now).1) :
    t < deadline := by
  fun_induction jsLoop timeline slept deadline now with
  | case1 now early found => exact List.mem_singleton.mp here ▸ early
  | case2 now early open' rest ih =>
    rcases List.mem_cons.mp here with rfl | later
    · exact early
    · exact ih later
  | case3 now late => exact absurd here List.not_mem_nil

theorem next_poll (now k s : Nat) : now + (k + 1) * s = now + s + k * s := by
  rw [Nat.add_mul, Nat.one_mul]
  omega

/-- It returns exactly if it finds a terminal status at one of its polls before the deadline. -/
theorem jsLoop_ends : (jsLoop timeline slept deadline now).2 ≠ .timedOut ↔
    ∃ k, now + k * slept < deadline ∧ timeline (now + k * slept) ≠ .pending := by
  fun_induction jsLoop timeline slept deadline now with
  | case1 now early found => exact iff_of_true nofun ⟨0, by simpa using early, by simpa using found⟩
  | case2 now early open' rest ih =>
    rw [ih]
    constructor
    · rintro ⟨k, found⟩
      exact ⟨k + 1, (next_poll now k slept).symm ▸ found⟩
    · rintro ⟨k, before, found⟩
      cases k with
      | zero => exact absurd (by simpa using found) open'
      | succ k => exact ⟨k, next_poll now k slept ▸ ⟨before, found⟩⟩
  | case3 now late =>
    refine iff_of_false (absurd rfl) ?_
    rintro ⟨k, before, -⟩
    omega

theorem pyLoop_visible {t : Nat} (here : t ∈ (pyLoop timeline interval deadline now).1)
    (terminal : timeline t ≠ .pending) :
    (pyLoop timeline interval deadline now).2 = .status (timeline t) := by
  fun_induction pyLoop timeline interval deadline now with
  | case1 now found =>
    obtain rfl := List.mem_singleton.mp here
    rfl
  | case2 now open' late =>
    obtain rfl := List.mem_singleton.mp here
    exact absurd terminal open'
  | case3 now open' early rest ih =>
    rcases List.mem_cons.mp here with rfl | later
    · exact absurd terminal open'
    · exact ih later

theorem pyLoop_seen {s : VerificationStatus}
    (ends : (pyLoop timeline interval deadline now).2 = .status s) :
    s ≠ .pending ∧ ∃ t ∈ (pyLoop timeline interval deadline now).1, timeline t = s := by
  fun_induction pyLoop timeline interval deadline now with
  | case1 now found =>
    obtain rfl := Waited.status.inj ends
    exact ⟨found, now, List.mem_singleton_self now, rfl⟩
  | case2 now open' late => exact nomatch ends
  | case3 now open' early rest ih =>
    obtain ⟨terminal, t, here, same⟩ := ih ends
    exact ⟨terminal, t, List.mem_cons_of_mem now here, same⟩

/-- The Python SDK gives up after a poll at the deadline. -/
theorem pyLoop_late (ends : (pyLoop timeline interval deadline now).2 = .timedOut) :
    ∃ t ∈ (pyLoop timeline interval deadline now).1, deadline ≤ t ∧ timeline t = .pending := by
  fun_induction pyLoop timeline interval deadline now with
  | case1 now found => exact nomatch ends
  | case2 now open' late =>
    exact ⟨now, List.mem_singleton_self now, late, by simpa using open'⟩
  | case3 now open' early rest ih =>
    obtain ⟨t, here, late, pending⟩ := ih ends
    exact ⟨t, List.mem_cons_of_mem now here, late, pending⟩

/-! ## Agreement -/

/-- With sleeps of the same length the two poll at the same instants before the deadline. -/
theorem same_of_exact (ends : (jsLoop timeline interval deadline now).2 ≠ .timedOut) :
    (pyLoop timeline interval deadline now).2 = (jsLoop timeline interval deadline now).2 := by
  fun_induction jsLoop timeline interval deadline now with
  | case1 now early found => rw [pyLoop, if_pos found]
  | case2 now early open' rest ih =>
    have next := ih ends
    have before : now + interval < deadline := by
      by_contra late
      refine ends ?_
      show (jsLoop timeline interval deadline (now + interval)).2 = .timedOut
      rw [jsLoop, if_neg late]
    rw [pyLoop, if_neg open', if_neg (by omega), min_eq_left (by omega)]
    exact next
  | case3 now late => exact absurd rfl ends

/-- Where no terminal status is left, one that the first sees before the deadline is the one that
the second sees. -/
theorem same_of_final {s : VerificationStatus} (final : timeline.Final)
    (ends : (jsLoop timeline slept deadline now).2 = .status s) :
    (pyLoop timeline interval deadline now).2 = .status s := by
  obtain ⟨terminal, t, here, same⟩ := jsLoop_seen ends
  have early := jsLoop_early here
  cases other : (pyLoop timeline interval deadline now).2 with
  | status s' =>
    obtain ⟨terminal', u, -, same'⟩ := pyLoop_seen other
    rcases Nat.le_total t u with before | before
    · rw [← same', final t u before (same ▸ terminal), same]
    · rw [← same, final u t before (same' ▸ terminal'), same']
  | timedOut =>
    obtain ⟨u, -, late, pending⟩ := pyLoop_late other
    have kept := final t u (by omega) (same ▸ terminal)
    exact absurd (same.symm.trans (kept.symm.trans pending)) terminal

/-- A poll of the JavaScript SDK before the deadline finds a terminal status. -/
def Wait.FoundEarly (w : Wait) : Prop :=
  ∃ k, k * (w.timer (flooredInterval w.intervalMs) : Nat) < w.timeoutMs ∧
    w.timeline (k * (w.timer (flooredInterval w.intervalMs) : Nat)) ≠ .pending

theorem js_ends {w : Wait} : w.js.2 ≠ .timedOut ↔ w.FoundEarly := by
  rw [Wait.js, jsLoop_ends]
  simp only [Nat.zero_add, Wait.FoundEarly]

/-- The SDKs agree exactly where the JavaScript SDK finds a terminal status before the deadline. -/
theorem agrees_iff {w : Wait} : w.Agrees ↔ w.FoundEarly := by
  rw [← js_ends]
  constructor
  · intro h ends
    obtain ⟨t, here, late, -⟩ := h.late w.js (by simp) ends
    have := jsLoop_early here
    omega
  · intro ends
    have same : w.js.2 = w.py.2 := by
      rcases w.steady with exact' | final
      · rw [Wait.js, exact'] at ends ⊢
        exact (same_of_exact ends).symm
      · cases came : w.js.2 with
        | status s => exact (same_of_final final came).symm
        | timedOut => exact absurd came ends
    constructor
    · exact same
    · simp only [List.mem_cons, List.not_mem_nil, or_false]
      rintro r (rfl | rfl) t here - terminal
      · exact jsLoop_visible here terminal
      · exact pyLoop_visible here terminal
    · simp only [List.mem_cons, List.not_mem_nil, or_false]
      rintro r (rfl | rfl) s came
      · exact jsLoop_seen came
      · exact pyLoop_seen came
    · simp only [List.mem_cons, List.not_mem_nil, or_false]
      rintro r (rfl | rfl) came
      · exact absurd came ends
      · exact pyLoop_late came

/-- A verification that is verified between the last poll of the JavaScript SDK and the deadline. -/
def lateVerified : Wait where
  timeline t := if 2500 ≤ t then .verified else .pending
  intervalMs := 2000
  timeoutMs := 3000
  timer := nodeTimer
  steady := .inl (by decide)

/-- The JavaScript SDK reports a timeout, and the Python SDK the verification. -/
theorem lateVerified_not_agrees : ¬lateVerified.Agrees := by
  intro h
  have js : lateVerified.js.2 = .timedOut := by
    by_contra ends
    obtain ⟨k, before, found⟩ := js_ends.mp ends
    have slept : (lateVerified.timer (flooredInterval lateVerified.intervalMs) : Nat) = 2000 := by
      decide
    rw [slept] at before found
    have before : k * 2000 < 3000 := before
    exact found (if_neg (by omega))
  obtain ⟨t, here, late, -⟩ := h.late lateVerified.js (by simp) js
  have := jsLoop_early here
  omega

end Syrotp.Sdk
