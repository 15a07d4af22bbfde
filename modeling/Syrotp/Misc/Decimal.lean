import Syrotp.Misc.JsText
import Mathlib.Data.List.TakeWhile

/-!
# Decimal numbers

What `parseInt` makes of a number that was printed: the number itself, as long as a double can
hold it.
-/

namespace Syrotp.Text

/-- The digits of a number as it is printed. -/
def digits (n : Nat) : Text := (Nat.toDigits 10 n).map fun c => c.toNat.toUInt16

theorem ofInt_nat (n : Nat) : ofInt n = digits n := by
  rw [ofInt, text, show toString (n : Int) = Nat.repr n from rfl, Nat.toList_repr]
  rfl

theorem ofInt_neg (n : Nat) : ofInt (-(n + 1 : Nat)) = 45 :: digits (n + 1) := by
  rw [ofInt, text, show toString (-((n + 1 : Nat) : Int)) = "-" ++ Nat.repr (n + 1) from rfl,
    String.toList_append, List.map_append, Nat.toList_repr]
  rfl

theorem digit_of_char {c : Char} (h : c.isDigit = true) :
    isDigit c.toNat.toUInt16 = true ∧ (c.toNat.toUInt16 - 48).toNat = c.toNat - '0'.toNat := by
  rw [Char.isDigit_iff_toNat] at h
  simp only [Char.reduceToNat] at h ⊢
  have small : c.toNat.toUInt16.toNat = c.toNat := by
    rw [Nat.toUInt16_eq, UInt16.toNat_ofNat']
    omega
  constructor
  · simp only [isDigit, Bool.and_eq_true, decide_eq_true_eq, UInt16.le_iff_toNat_le, small]
    exact h
  · rw [UInt16.toNat_sub_of_le _ _ (UInt16.le_iff_toNat_le.mpr (by rw [small]; exact h.1)), small]
    rfl

/-- The number that digits spell. -/
def magnitude (s : Text) : Nat := s.foldl (fun n c => n * 10 + (c - 48).toNat) 0

theorem magnitude_digits (n : Nat) : magnitude (digits n) = n := by
  have step : ∀ (ds : List Char) (m : Nat), (∀ c ∈ ds, c.isDigit = true) →
      ds.foldl (fun m c => m * 10 + (c.toNat.toUInt16 - 48).toNat) m =
        Nat.ofDigitChars 10 ds m := by
    intro ds
    induction ds with
    | nil => exact fun m _ => rfl
    | cons d ds ih =>
      intro m all
      rw [List.foldl_cons, (digit_of_char (all d List.mem_cons_self)).2, Nat.mul_comm m,
        ih _ fun c hc => all c (List.mem_cons_of_mem _ hc), Nat.ofDigitChars_cons]
  have char : ∀ c ∈ Nat.toDigits 10 n, c.isDigit = true := fun c hc =>
    Nat.isDigit_of_mem_toDigits (by decide) (by decide) hc
  rw [magnitude, digits, List.foldl_map, step _ 0 char,
    Nat.ofDigitChars_toDigits (by decide) (by decide)]

theorem isDigit_of_mem_digits {n : Nat} {c : UInt16} (h : c ∈ digits n) : isDigit c = true := by
  obtain ⟨d, hd, rfl⟩ := List.mem_map.mp h
  exact (digit_of_char (Nat.isDigit_of_mem_toDigits (by decide) (by decide) hd)).1

theorem digits_ne_nil (n : Nat) : digits n ≠ [] := by
  rw [digits, Ne, List.map_eq_nil_iff]
  exact Nat.toDigits_ne_nil

/-- The numbers that are finite as doubles. -/
def Finite (n : Int) : Prop := n.natAbs < 2 ^ 1024 - 2 ^ 970

/-- What `parseInt` makes of digits, and of digits after a minus sign. -/
theorem parseInt_of_digits {s : Text} (all : ∀ c ∈ s, isDigit c = true) (nonempty : s ≠ [])
    (finite : magnitude s < 2 ^ 1024 - 2 ^ 970) :
    parseInt s = some (magnitude s : Int) ∧ parseInt (45 :: s) = some (-(magnitude s : Int)) := by
  have taken : s.takeWhile isDigit = s := List.takeWhile_eq_self_iff.mpr all
  have held : ¬(s.isEmpty = true ∨ 2 ^ 1024 - 2 ^ 970 ≤ magnitude s) := by
    rw [List.isEmpty_iff]
    exact not_or.mpr ⟨nonempty, Nat.not_le.mpr finite⟩
  have first : s.dropWhile isSpace = s ∧ s.head? ≠ some 45 ∧ s.head? ≠ some 43 := by
    cases s with
    | nil => exact absurd rfl nonempty
    | cons c rest =>
      have digit := all c List.mem_cons_self
      refine ⟨List.dropWhile_cons_of_neg (by simp [digit_not_space digit]), ?_, ?_⟩
      · rintro same
        exact absurd (Option.some.inj same ▸ digit) (by decide)
      · rintro same
        exact absurd (Option.some.inj same ▸ digit) (by decide)
  obtain ⟨start, minus, plus⟩ := first
  have sign : (45 :: s).dropWhile isSpace = 45 :: s := List.dropWhile_cons_of_neg (by decide)
  constructor
  · simp only [parseInt, start, minus, plus, or_self, if_false, taken]
    exact (if_neg held).trans rfl
  · simp only [parseInt, sign, List.head?_cons, true_or, if_true, List.tail_cons, taken]
    exact (if_neg held).trans rfl

/-- A printed number is read back. -/
theorem parseInt_ofInt {n : Int} (finite : Finite n) : parseInt (ofInt n) = some n := by
  have read : ∀ m : Nat, Finite m → parseInt (digits m) = some (m : Int) ∧
      parseInt (45 :: digits m) = some (-(m : Int)) := by
    intro m finite
    have both := parseInt_of_digits (fun _ => isDigit_of_mem_digits) (digits_ne_nil m)
      ((magnitude_digits m).symm ▸ finite)
    rwa [magnitude_digits] at both
  obtain ⟨m, rfl | rfl⟩ := n.eq_nat_or_neg
  · rw [ofInt_nat]
    exact (read m finite).1
  · cases m with
    | zero => exact (read 0 finite).1
    | succ m =>
      rw [ofInt_neg]
      exact (read (m + 1) (by rw [Finite, Int.natAbs_neg] at finite; exact finite)).2

theorem ofInt_injective : ofInt.Injective := by
  have head : ∀ m n, digits m ≠ 45 :: digits n := by
    intro m n same
    exact absurd (isDigit_of_mem_digits (same ▸ List.mem_cons_self)) (by decide)
  have digits_inj : ∀ {m n}, digits m = digits n → m = n := fun {m n} same => by
    rw [← magnitude_digits m, same, magnitude_digits]
  intro m n same
  cases m with
  | ofNat m =>
    cases n with
    | ofNat n =>
      exact congrArg Int.ofNat (digits_inj ((ofInt_nat m).symm.trans (same.trans (ofInt_nat n))))
    | negSucc n => exact absurd ((ofInt_nat m).symm.trans (same.trans (ofInt_neg n))) (head m _)
  | negSucc m =>
    have left := ofInt_neg m
    cases n with
    | ofNat n => exact absurd ((ofInt_nat n).symm.trans (same.symm.trans left)) (head n _)
    | negSucc n =>
      have both := left.symm.trans (same.trans (ofInt_neg n))
      exact congrArg Int.negSucc (Nat.succ.inj (digits_inj (List.cons.inj both).2))

/-- A printed number is made of digits and a minus sign. -/
theorem mem_ofInt {n : Int} {c : UInt16} (h : c ∈ ofInt n) : c = 45 ∨ isDigit c = true := by
  obtain ⟨m, rfl | rfl⟩ := n.eq_nat_or_neg
  · exact .inr (isDigit_of_mem_digits (ofInt_nat m ▸ h))
  · cases m with
    | zero => exact .inr (isDigit_of_mem_digits (n := 0) h)
    | succ m =>
      rw [ofInt_neg] at h
      rcases List.mem_cons.mp h with rfl | h
      · exact .inl rfl
      · exact .inr (isDigit_of_mem_digits h)

end Syrotp.Text
