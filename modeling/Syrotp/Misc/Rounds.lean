import Mathlib.Data.List.Basic
import Mathlib.Order.Basic

/-!
# Bounded retries

A loop makes an attempt, and another one after each that asks for it, as long as retries are left.
Which attempts are made is settled here once, for loops that keep a log of what they do.
-/

namespace Syrotp

variable (again : Nat → Bool)

/-- The attempt a loop ends with that is at attempt `k` and has so many retries left. -/
def lastFrom : Nat → Nat → Nat
  | 0, k => k
  | left + 1, k => if again k then lastFrom left (k + 1) else k

/-- Attempt `k` is made: every attempt before it asks for another, and there are retries enough. -/
def Reached (limit k : Nat) : Prop := k ≤ limit ∧ ∀ j < k, again j = true

variable {again} {limit left k : Nat}

theorem Reached.succ (made : Reached again limit k) (asks : again k = true) (more : k < limit) :
    Reached again limit (k + 1) := by
  refine ⟨more, fun j before => ?_⟩
  rcases Nat.lt_or_eq_of_le (Nat.le_of_lt_succ before) with before | rfl
  · exact made.2 j before
  · exact asks

theorem le_lastFrom : k ≤ lastFrom again left k := by
  induction left generalizing k with
  | zero => exact Nat.le_refl k
  | succ left ih =>
    rw [lastFrom]
    split
    · exact Nat.le_of_succ_le ih
    · exact Nat.le_refl k

theorem lastFrom_le : lastFrom again left k ≤ k + left := by
  induction left generalizing k with
  | zero => exact Nat.le_refl k
  | succ left ih =>
    rw [lastFrom]
    split
    · have := ih (k := k + 1)
      omega
    · exact Nat.le_add_right ..

/-- The attempts before the last ask for another. -/
theorem again_of_lt_lastFrom {j : Nat} (low : k ≤ j) (high : j < lastFrom again left k) :
    again j = true := by
  induction left generalizing k with
  | zero => exact absurd low (Nat.not_le.mpr high)
  | succ left ih =>
    rw [lastFrom] at high
    split at high
    · next ask =>
      rcases Nat.eq_or_lt_of_le low with rfl | later
      · exact ask
      · exact ih later high
    · exact absurd low (Nat.not_le.mpr high)

/-- The last attempt asks for no other, or the retries are used up. -/
theorem lastFrom_ends : lastFrom again left k = k + left ∨
    again (lastFrom again left k) = false := by
  induction left generalizing k with
  | zero => exact .inl rfl
  | succ left ih =>
    rw [lastFrom]
    split
    · rcases ih (k := k + 1) with used | stops
      · exact .inl (by omega)
      · exact .inr stops
    · next ask => exact .inr (by simpa using ask)

/-- The attempts that are made are those up to the last. -/
theorem reached_iff : Reached again limit k ↔ k ≤ lastFrom again limit 0 := by
  constructor
  · rintro ⟨within, asked⟩
    have ends : lastFrom again limit 0 = 0 + limit ∨ again (lastFrom again limit 0) = false :=
      lastFrom_ends
    rcases ends with used | stops
    · omega
    · refine Nat.not_lt.mp fun early => ?_
      exact absurd (asked _ early) (by simp [stops])
  · intro made
    have within : lastFrom again limit 0 ≤ 0 + limit := lastFrom_le
    exact ⟨by omega, fun j before =>
      again_of_lt_lastFrom (Nat.zero_le j) (Nat.lt_of_lt_of_le before made)⟩

/-- An attempt that is made and has none after it is the last. -/
theorem lastFrom_eq (made : Reached again limit k) (ends : k = limit ∨ again k = false) :
    lastFrom again limit 0 = k := by
  have here : k ≤ lastFrom again limit 0 := reached_iff.mp made
  have within : lastFrom again limit 0 ≤ 0 + limit := lastFrom_le
  refine Nat.le_antisymm (Nat.not_lt.mp fun before => ?_) here
  have asks : again k = true := again_of_lt_lastFrom (Nat.zero_le k) before
  rcases ends with rfl | stops
  · omega
  · exact absurd asks (by simp [stops])

/-- The log and the result of a loop: what every attempt before the last leaves, and then what the
last one comes to with the retries it has left. -/
theorem rounds_eq {ε β : Type*} {loop final : Nat → Nat → List ε × β} {round : Nat → List ε}
    (last : ∀ k, loop 0 k = final 0 k)
    (next : ∀ left k, loop (left + 1) k =
      if again k then (round k ++ (loop left (k + 1)).1, (loop left (k + 1)).2)
      else final (left + 1) k) :
    loop left k =
      let l := lastFrom again left k
      ((List.range' k (l - k)).flatMap round ++ (final (k + left - l) l).1,
        (final (k + left - l) l).2) := by
  induction left generalizing k with
  | zero => simp [lastFrom, last]
  | succ left ih =>
    rw [next, lastFrom]
    split
    · have made : k + 1 ≤ lastFrom again left (k + 1) := le_lastFrom
      have count : lastFrom again left (k + 1) - k =
          lastFrom again left (k + 1) - (k + 1) + 1 := by omega
      rw [ih]
      simp only [count, List.range'_succ, List.flatMap_cons, List.append_assoc]
      rw [show k + (left + 1) = k + 1 + left by omega]
    · simp

end Syrotp
