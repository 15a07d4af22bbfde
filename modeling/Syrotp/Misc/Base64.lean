import Syrotp.Misc.JsText
import Mathlib.Data.List.TakeWhile

/-!
# Base64

Three bytes are four sextets, and what is left at the end is two or three of them. Reading is
lenient, as JavaScript runtimes read: it stops at the first `=`, knows both alphabets and passes
over everything else. So what was written is read back, with or without its padding.
-/

namespace Syrotp

/-! ## Sextets -/

/-- The groups of six bits, the last one filled up with zeros. -/
def sextets : List UInt8 → List Nat
  | [] => []
  | [a] => [a.toNat / 4, a.toNat % 4 * 16]
  | [a, b] => [a.toNat / 4, a.toNat % 4 * 16 + b.toNat / 16, b.toNat % 16 * 4]
  | a :: b :: c :: rest =>
    a.toNat / 4 :: (a.toNat % 4 * 16 + b.toNat / 16) :: (b.toNat % 16 * 4 + c.toNat / 64) ::
      c.toNat % 64 :: sextets rest

/-- The bytes that are complete. -/
def octets : List Nat → List UInt8
  | a :: b :: c :: d :: rest =>
    (a * 4 + b / 16).toUInt8 :: (b % 16 * 16 + c / 4).toUInt8 :: (c % 4 * 64 + d).toUInt8 ::
      octets rest
  | [a, b, c] => [(a * 4 + b / 16).toUInt8, (b % 16 * 16 + c / 4).toUInt8]
  | [a, b] => [(a * 4 + b / 16).toUInt8]
  | _ => []

theorem sextets_lt {bytes : List UInt8} : ∀ n ∈ sextets bytes, n < 64 := by
  have range : ∀ a : UInt8, a.toNat < 256 := UInt8.toNat_lt
  fun_induction sextets bytes with
  | case1 => exact nofun
  | case2 a =>
    have ha := range a
    simp only [List.mem_cons, List.not_mem_nil, or_false, forall_eq_or_imp, forall_eq]
    omega
  | case3 a b =>
    have ha := range a
    have hb := range b
    simp only [List.mem_cons, List.not_mem_nil, or_false, forall_eq_or_imp, forall_eq]
    omega
  | case4 a b c rest ih =>
    have ha := range a
    have hb := range b
    have hc := range c
    simp only [List.mem_cons, forall_eq_or_imp]
    exact ⟨by omega, by omega, by omega, by omega, ih⟩

theorem toUInt8_eq {n : ℕ} {b : UInt8} (same : n = b.toNat) : n.toUInt8 = b := by
  rw [same]
  exact UInt8.ofNat_toNat

/-- The bytes are known from their sextets. -/
theorem octets_sextets (bytes : List UInt8) : octets (sextets bytes) = bytes := by
  have range : ∀ a : UInt8, a.toNat < 256 := UInt8.toNat_lt
  fun_induction sextets bytes with
  | case1 => rfl
  | case2 a =>
    have ha := range a
    have first : (a.toNat / 4 * 4 + a.toNat % 4 * 16 / 16).toUInt8 = a := toUInt8_eq (by omega)
    rw [octets, first]
  | case3 a b =>
    have ha := range a
    have hb := range b
    have first : (a.toNat / 4 * 4 + (a.toNat % 4 * 16 + b.toNat / 16) / 16).toUInt8 = a :=
      toUInt8_eq (by omega)
    have second : ((a.toNat % 4 * 16 + b.toNat / 16) % 16 * 16 + b.toNat % 16 * 4 / 4).toUInt8 =
        b := toUInt8_eq (by omega)
    rw [octets, first, second]
  | case4 a b c rest ih =>
    have ha := range a
    have hb := range b
    have hc := range c
    have first : (a.toNat / 4 * 4 + (a.toNat % 4 * 16 + b.toNat / 16) / 16).toUInt8 = a :=
      toUInt8_eq (by omega)
    have second : ((a.toNat % 4 * 16 + b.toNat / 16) % 16 * 16 +
        (b.toNat % 16 * 4 + c.toNat / 64) / 4).toUInt8 = b := toUInt8_eq (by omega)
    have third : ((b.toNat % 16 * 4 + c.toNat / 64) % 4 * 64 + c.toNat % 64).toUInt8 = c :=
      toUInt8_eq (by omega)
    rw [octets, first, second, third, ih]

/-! ## Digits -/

def base64Alphabet : Text :=
  text "ABCDEFGHIJKLMNOPQRSTUVWXYZabcdefghijklmnopqrstuvwxyz0123456789+/"

/-- The digit of a sextet. -/
def base64Digit (n : Nat) : UInt16 := base64Alphabet.getD n 0

/-- The value of a digit of either alphabet. -/
def base64Value (c : UInt16) : Option Nat :=
  if 65 ≤ c ∧ c ≤ 90 then some (c.toNat - 65)
  else if 97 ≤ c ∧ c ≤ 122 then some (c.toNat - 71)
  else if 48 ≤ c ∧ c ≤ 57 then some (c.toNat + 4)
  else if c = 43 ∨ c = 45 then some 62
  else if c = 47 ∨ c = 95 then some 63
  else none

/-- `buf.toString("base64")`. -/
def base64 (bytes : List UInt8) : Text :=
  (sextets bytes).map base64Digit ++ List.replicate ((3 - bytes.length % 3) % 3) 61

/-- `Buffer.from(s, "base64")`. -/
def fromBase64 (s : Text) : List UInt8 := octets ((s.takeWhile (· ≠ 61)).filterMap base64Value)

theorem base64Value_digit : ∀ n < 64, base64Value (base64Digit n) = some n := by decide +kernel

theorem base64Digit_ne_pad : ∀ n < 64, base64Digit n ≠ 61 := by decide +kernel

/-- What was written is read back, however much padding follows. -/
theorem fromBase64_digits (bytes : List UInt8) (k : ℕ) :
    fromBase64 ((sextets bytes).map base64Digit ++ List.replicate k 61) = bytes := by
  have digits : ∀ c ∈ (sextets bytes).map base64Digit, decide (c ≠ 61) = true := by
    intro c hc
    obtain ⟨n, hn, rfl⟩ := List.mem_map.mp hc
    exact decide_eq_true (base64Digit_ne_pad n (sextets_lt n hn))
  have pads : (List.replicate k (61 : UInt16)).takeWhile (· ≠ 61) = [] := by
    cases k with
    | zero => rfl
    | succ k => rw [List.replicate_succ, List.takeWhile_cons_of_neg (by decide)]
  have values : ((sextets bytes).map base64Digit).filterMap base64Value = sextets bytes := by
    rw [List.filterMap_map]
    calc (sextets bytes).filterMap (base64Value ∘ base64Digit)
        = (sextets bytes).filterMap some :=
          List.filterMap_congr fun n hn => base64Value_digit n (sextets_lt n hn)
      _ = sextets bytes := List.filterMap_some
  rw [fromBase64, List.takeWhile_append_of_pos digits, pads, List.append_nil, values,
    octets_sextets]

end Syrotp
