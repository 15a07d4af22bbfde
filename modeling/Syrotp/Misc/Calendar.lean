import Mathlib.Algebra.BigOperators.Intervals

/-!
# The Gregorian calendar

Dates and times of day with their ranges, the number of a day as the lengths of the years and the
months before it, and the milliseconds of an instant since the first of January of 1970.
-/

namespace Syrotp.Calendar

open Finset

def LeapYear (year : Nat) : Prop := 4 ∣ year ∧ (¬100 ∣ year ∨ 400 ∣ year)

instance (year : Nat) : Decidable (LeapYear year) := inferInstanceAs (Decidable (_ ∧ _))

def monthLength (year month : Nat) : Nat :=
  match month with
  | 2 => if LeapYear year then 29 else 28
  | 4 | 6 | 9 | 11 => 30
  | _ => 31

def yearLength (year : Nat) : Nat := ∑ month ∈ Ico 1 13, monthLength year month

structure Date where
  year : Nat
  month : Nat
  day : Nat
  month_mem : 1 ≤ month ∧ month ≤ 12
  day_mem : 1 ≤ day ∧ day ≤ monthLength year month
  deriving DecidableEq, Repr

/-- The first of January of year 1 is day 1. -/
def Date.number (d : Date) : Nat :=
  ∑ year ∈ Ico 1 d.year, yearLength year +
    ∑ month ∈ Ico 1 d.month, monthLength d.year month + d.day

def epoch : Date := ⟨1970, 1, 1, by decide, by decide⟩

structure DateTime extends Date where
  hour : Nat
  minute : Nat
  second : Nat
  hour_lt : hour < 24
  minute_lt : minute < 60
  second_lt : second < 60
  deriving DecidableEq, Repr

/-- The milliseconds from the epoch until a clock shows this, of a clock that showed midnight
then. -/
def DateTime.millis (t : DateTime) : Int :=
  (((t.number : Int) - epoch.number) * 86400 + t.hour * 3600 + t.minute * 60 + t.second) * 1000

theorem yearLength_eq (year : Nat) : yearLength year = if LeapYear year then 366 else 365 := by
  unfold yearLength
  by_cases leap : LeapYear year
  · simp [sum_Ico_succ_top, monthLength, leap]
  · simp [sum_Ico_succ_top, monthLength, leap]

/-- The leap days of `n` years are one every four, but not one every hundred, but one every four
hundred. -/
theorem sum_yearLength (n : Nat) :
    ∑ year ∈ Ico 1 (n + 1), yearLength year = n * 365 + n / 4 - n / 100 + n / 400 := by
  induction n with
  | zero => rfl
  | succ n ih =>
    rw [sum_Ico_succ_top (by omega), ih, yearLength_eq]
    by_cases leap : LeapYear (n + 1)
    · rw [if_pos leap]
      unfold LeapYear at leap
      omega
    · rw [if_neg leap]
      unfold LeapYear at leap
      omega

theorem epoch_number : epoch.number = 719163 := by
  have years := sum_yearLength 1969
  have year : epoch.year = 1969 + 1 := rfl
  have month : epoch.month = 1 := rfl
  have day : epoch.day = 1 := rfl
  rw [Date.number, year, years, month, Ico_self, sum_empty, day]
  decide

end Syrotp.Calendar
