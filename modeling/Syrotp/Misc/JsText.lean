import Mathlib.Algebra.GroupWithZero.Nat
import Mathlib.Data.List.Basic

/-!
# JavaScript strings

A JavaScript string is a sequence of UTF-16 code units; `length`, `slice` and `startsWith` count
and compare code units, and a lone surrogate is an ordinary element.
-/

namespace Syrotp

/-- A JavaScript string. -/
abbrev Text := List UInt16

/-- A literal of the source, whose characters are all ASCII. -/
def text (s : String) : Text := s.toList.map fun c => c.toNat.toUInt16

namespace Text

/-- WhiteSpace and LineTerminator of the language: what `trim` strips and `\s` matches. -/
def isSpace (c : UInt16) : Bool :=
  (9 ≤ c && c ≤ 13) || c == 32 || c == 0xA0 || c == 0x1680 || (0x2000 ≤ c && c ≤ 0x200A) ||
    c == 0x2028 || c == 0x2029 || c == 0x202F || c == 0x205F || c == 0x3000 || c == 0xFEFF

/-- `s.trim()`. -/
def trim (s : Text) : Text := ((s.dropWhile isSpace).reverse.dropWhile isSpace).reverse

/-- `s.startsWith(p)`. -/
def startsWith (s p : Text) : Bool := p.isPrefixOf s

/-- `s.replace(/\s+/g, "")`. -/
def removeSpaces (s : Text) : Text := s.filter fun c => !isSpace c

/-- `[A-Z0-9]`. -/
def isUpperAlnum (c : UInt16) : Bool := (65 ≤ c && c ≤ 90) || (48 ≤ c && c ≤ 57)

/-- `/^[A-Z0-9]+$/.test(s)`. -/
def upperAlnum (s : Text) : Bool := !s.isEmpty && s.all isUpperAlnum

/-- `toUpperCase` on text that is all ASCII. -/
def asciiUpper (s : Text) : Text := s.map fun c => if 97 ≤ c ∧ c ≤ 122 then c - 32 else c

/-- `[0-9]`. -/
def isDigit (c : UInt16) : Bool := 48 ≤ c && c ≤ 57

/-- `[0-9a-f]` without regard to case. -/
def isHexDigit (c : UInt16) : Bool := isDigit c || (97 ≤ c && c ≤ 102) || (65 ≤ c && c ≤ 70)

/-- `[A-Za-z0-9]`. -/
def isAlnum (c : UInt16) : Bool := isUpperAlnum c || (97 ≤ c && c ≤ 122)

/-- `Number.parseInt(s, 10)` where that is finite: what follows the digits is ignored, and a number
that a double cannot hold is infinite. It is exact as far as doubles are, beyond any clock. -/
def parseInt (s : Text) : Option Int :=
  let trimmed := s.dropWhile isSpace
  let negative := trimmed.head? = some 45
  let unsigned := if trimmed.head? = some 45 ∨ trimmed.head? = some 43 then trimmed.tail
    else trimmed
  let digits := unsigned.takeWhile isDigit
  let magnitude : Nat := digits.foldl (fun n c => n * 10 + (c - 48).toNat) 0
  if digits.isEmpty ∨ 2 ^ 1024 - 2 ^ 970 ≤ magnitude then none
  else some (if negative then -magnitude else magnitude)

example : parseInt (text " +42s") = some 42 := by decide +kernel

/-- The decimal digits of an integer, as a template literal prints it. -/
def ofInt (n : Int) : Text := text (toString n)

/-- A character of `alphabet` for each of the `length` indices drawn. -/
def draw (alphabet : Text) (length : Nat) (random : Nat → Nat) : Text :=
  (List.range length).map fun i => alphabet.getD (random i % alphabet.length) 0

/-- Text without white space has nothing to trim. -/
theorem trim_eq_self {s : Text} (h : ∀ c ∈ s, isSpace c = false) : trim s = s := by
  have keep : ∀ {t : Text}, (∀ c ∈ t, isSpace c = false) → t.dropWhile isSpace = t := by
    intro t ht
    cases t with
    | nil => rfl
    | cons c t => simp [ht c]
  rw [trim, keep h, keep fun c hc => h c (List.mem_reverse.mp hc), List.reverse_reverse]

theorem digit_not_space {c : UInt16} (h : isDigit c = true) : isSpace c = false := by
  simp only [isDigit, Bool.and_eq_true, decide_eq_true_eq, UInt16.le_iff_toNat_le] at h
  simp only [isSpace, Bool.or_eq_false_iff, Bool.and_eq_false_iff, decide_eq_false_iff_not,
    UInt16.le_iff_toNat_le, beq_eq_false_iff_ne, ne_eq, ← UInt16.toNat_inj]
  simp at *
  omega

theorem length_draw {alphabet : Text} {n : Nat} {random : Nat → Nat} :
    (draw alphabet n random).length = n := by simp [draw]

/-- Only characters of the alphabet are drawn. -/
theorem mem_of_mem_draw {alphabet : Text} {n : Nat} {random : Nat → Nat} (some : alphabet ≠ [])
    {c : UInt16} (h : c ∈ draw alphabet n random) : c ∈ alphabet := by
  obtain ⟨i, _, rfl⟩ := List.mem_map.mp h
  have bound : random i % alphabet.length < alphabet.length :=
    Nat.mod_lt _ (List.length_pos_of_ne_nil some)
  rw [List.getD_eq_getElem?_getD, List.getElem?_eq_getElem bound]
  exact List.getElem_mem bound

end Text

end Syrotp
