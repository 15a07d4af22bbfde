import Mathlib.Data.Nat.Basic
import Mathlib.Data.List.Count

/-!
# Fixed windows

Time is cut into windows of one width, and a moment is in the window of the quotient. If no window
holds more than `k` of the events counted, no interval of that width holds more than `2 * k`: it
meets two windows. A window holds no more than `k` of them if each has a number that the events of
the window before it leave free, and only the numbers up to `k` count.
-/

namespace Syrotp

variable {α : Type*} {time : α → ℕ} {p q : α → Bool} {log : List α} {width k : ℕ}

/-- An interval as wide as a window meets its first moment's window and the next. -/
theorem window_of_mem_interval {start t : ℕ} (positive : 0 < width) (lower : start ≤ t)
    (upper : t < start + width) : t / width = start / width ∨ t / width = start / width + 1 := by
  have first : start / width ≤ t / width := Nat.div_le_div_right lower
  have last : t / width ≤ start / width + 1 := by
    rw [← Nat.add_div_right start positive]
    exact Nat.div_le_div_right (Nat.le_of_lt upper)
  omega

theorem countP_le_add {q' : α → Bool} (cover : ∀ x ∈ log, p x → q x ∨ q' x) :
    log.countP p ≤ log.countP q + log.countP q' := by
  induction log with
  | nil => exact Nat.zero_le _
  | cons x log ih =>
    have rest := ih fun y hy => cover y (List.mem_cons_of_mem x hy)
    have first := cover x List.mem_cons_self
    rw [List.countP_cons, List.countP_cons, List.countP_cons]
    by_cases h : p x
    · rcases first h with hq | hq
      · rw [if_pos h, if_pos hq]
        omega
      · rw [if_pos h, if_pos hq]
        omega
    · rw [if_neg h]
      omega

/-- What each window bounds by `k`, each interval of its width bounds by `2 * k`. -/
theorem countP_interval_le (positive : 0 < width)
    (bound : ∀ i, log.countP (fun x => p x && time x / width == i) ≤ k) (start : ℕ) :
    log.countP (fun x => p x && (start ≤ time x && time x < start + width)) ≤ 2 * k := by
  have cover : ∀ x ∈ log, (p x && (start ≤ time x && time x < start + width)) = true →
      (p x && time x / width == start / width) = true ∨
        (p x && time x / width == start / width + 1) = true := by
    intro x _ h
    simp only [Bool.and_eq_true, decide_eq_true_eq] at h
    obtain ⟨hp, lower, upper⟩ := h
    rcases window_of_mem_interval positive lower upper with first | second
    · exact .inl (by simp [hp, first])
    · exact .inr (by simp [hp, second])
  have both := countP_le_add cover
  have first := bound (start / width)
  have second := bound (start / width + 1)
  omega

/-- One more event: it counts only if the number after those of its kind so far is within the
bound. -/
theorem countP_concat_le {x : α} (sub : ∀ y, p y → q y) (bound : log.countP p ≤ k)
    (numbered : p x → log.countP q + 1 ≤ k) : (log ++ [x]).countP p ≤ k := by
  rw [List.countP_append, List.countP_singleton]
  by_cases h : p x
  · rw [if_pos h]
    have fewer : log.countP p ≤ log.countP q := List.countP_mono_left fun y _ => sub y
    have number := numbered h
    omega
  · rw [if_neg h]
    exact bound

/-! ## Events of another log

The events of a log may be written down in a log of their own, each as some entries.
-/

section

variable {β : Type*} {f : α → List β} {counted : β → Bool}

theorem countP_flatMap_eq (each : ∀ x, (f x).countP counted = if p x then 1 else 0) :
    (log.flatMap f).countP counted = log.countP p := by
  induction log with
  | nil => rfl
  | cons x log ih =>
    rw [List.flatMap_cons, List.countP_append, List.countP_cons, ih, each, Nat.add_comm]

theorem le_countP_flatMap (each : ∀ x, p x → 1 ≤ (f x).countP counted) :
    log.countP p ≤ (log.flatMap f).countP counted := by
  induction log with
  | nil => exact Nat.zero_le _
  | cons x log ih =>
    rw [List.flatMap_cons, List.countP_append, List.countP_cons]
    by_cases h : p x
    · have one := each x h
      rw [if_pos h]
      omega
    · rw [if_neg h]
      omega

end

end Syrotp
