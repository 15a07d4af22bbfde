import Mathlib.Algebra.GroupWithZero.Nat
import Mathlib.Data.List.TakeWhile
import Syrotp.Misc.Pattern

/-!
# Python strings

A Python string is a sequence of characters. Its white space and its decimal digits are those of
Unicode, and `int` takes a sign, underscores and white space around besides. `Spells` says which
texts `int` reads, and as what.
-/

namespace Syrotp.Py

/-- A Python string. -/
abbrev Str := List Char

def str (s : String) : Str := s.toList

/-- `str.isspace` of a character, which is also what `\s` matches. -/
def isSpace (c : Char) : Bool :=
  let n := c.toNat
  (9 ≤ n && n ≤ 13) || (28 ≤ n && n ≤ 32) || n == 0x85 || n == 0xA0 || n == 0x1680 ||
    (0x2000 ≤ n && n ≤ 0x200A) || n == 0x2028 || n == 0x2029 || n == 0x202F || n == 0x205F ||
    n == 0x3000

/-- The text without the white space around it. -/
def trim (space : Char → Bool) (s : Str) : Str :=
  ((s.dropWhile space).reverse.dropWhile space).reverse

/-- `s.strip()`. -/
def strip (s : Str) : Str := trim isSpace s

/-- The zeros among the decimal digits of Unicode 14, which Python 3.11 has; the nine other digits
of a script follow its zero. -/
def decimalZeros : List Nat :=
  [0x30, 0x660, 0x6F0, 0x7C0, 0x966, 0x9E6, 0xA66, 0xAE6, 0xB66, 0xBE6, 0xC66, 0xCE6, 0xD66, 0xDE6,
    0xE50, 0xED0, 0xF20, 0x1040, 0x1090, 0x17E0, 0x1810, 0x1946, 0x19D0, 0x1A80, 0x1A90, 0x1B50,
    0x1BB0, 0x1C40, 0x1C50, 0xA620, 0xA8D0, 0xA900, 0xA9D0, 0xA9F0, 0xAA50, 0xABF0, 0xFF10,
    0x104A0, 0x10D30, 0x11066, 0x110F0, 0x11136, 0x111D0, 0x112F0, 0x11450, 0x114D0, 0x11650,
    0x116C0, 0x11730, 0x118E0, 0x11950, 0x11C50, 0x11D50, 0x11DA0, 0x16A60, 0x16AC0, 0x16B50,
    0x1D7CE, 0x1D7D8, 0x1D7E2, 0x1D7EC, 0x1D7F6, 0x1E140, 0x1E2F0, 0x1E950, 0x1FBF0]

/-- The digit belongs to the script of this zero. -/
def isDigitOf (z : Nat) (c : Char) : Bool := z ≤ c.toNat && c.toNat < z + 10

/-- `str.isdecimal` of a character, which is also what `\d` matches. -/
def isDecimal (c : Char) : Bool := decimalZeros.any fun z => isDigitOf z c

/-- `unicodedata.decimal`. -/
def decimalValue (c : Char) : Nat :=
  ((decimalZeros.find? fun z => isDigitOf z c).map fun z => c.toNat - z).getD 0

/-- `int(s)` of decimal digits. -/
def intOfDigits (s : Str) : Nat := s.foldl (fun n c => 10 * n + decimalValue c) 0

/-- `sys.get_int_max_str_digits()`. -/
def maxStrDigits : Nat := 4300

/-- The white space that `int` leaves out; the separators U+001C to U+001F are not of it. -/
def isIntSpace (c : Char) : Bool := isSpace c && !(28 ≤ c.toNat && c.toNat ≤ 31)

/-- `int(s)`, `none` where it raises: white space around, a sign, underscores between digits, and
no more digits than the interpreter allows. -/
def pyInt (s : Str) : Option Int :=
  let t := trim isIntSpace s
  let unsigned := if t.head? = some '-' ∨ t.head? = some '+' then t.tail else t
  let groups := unsigned.splitOn '_'
  if (groups.all fun g => !g.isEmpty && g.all isDecimal) ∧
      groups.flatten.length ≤ maxStrDigits then
    some (if t.head? = some '-' then -intOfDigits groups.flatten else intOfDigits groups.flatten)
  else none

/-! ## The digits -/

theorem isDigit_range {c : Char} (h : c.isDigit = true) : 48 ≤ c.toNat ∧ c.toNat ≤ 57 := by
  simp only [Char.isDigit, ge_iff_le, Bool.and_eq_true, decide_eq_true_eq,
    UInt32.le_iff_toNat_le] at h
  exact h

theorem isDigitOf_of_isDigit {c : Char} (h : c.isDigit = true) : isDigitOf 48 c = true := by
  have range := isDigit_range h
  simp only [isDigitOf, Bool.and_eq_true, decide_eq_true_eq]
  omega

theorem isDecimal_of_isDigit {c : Char} (h : c.isDigit = true) : isDecimal c = true :=
  List.any_eq_true.mpr ⟨48, List.mem_cons_self, isDigitOf_of_isDigit h⟩

theorem decimalValue_of_isDigit {c : Char} (h : c.isDigit = true) :
    decimalValue c = c.toNat - 48 := by
  have found : decimalZeros.find? (fun z => isDigitOf z c) = some 48 :=
    List.find?_cons_of_pos (isDigitOf_of_isDigit h)
  rw [decimalValue, found]
  rfl

/-- Digits of ASCII are read as everywhere. -/
theorem intOfDigits_eq {s : Str} (digits : ∀ c ∈ s, c.isDigit = true) :
    intOfDigits s = Nat.ofDigitChars 10 s 0 := by
  unfold intOfDigits Nat.ofDigitChars
  generalize 0 = n
  induction s generalizing n with
  | nil => rfl
  | cons c s ih =>
    rw [List.foldl_cons, List.foldl_cons, decimalValue_of_isDigit (digits c List.mem_cons_self)]
    exact ih (fun d hd => digits d (List.mem_cons_of_mem _ hd)) _

/-- No decimal digit is white space. -/
theorem isSpace_of_isDecimal {c : Char} (h : isDecimal c = true) : isSpace c = false := by
  have apart : ∀ z ∈ decimalZeros, 32 < z ∧ z + 10 ≤ 0x85 ∨ 0xA0 < z ∧ z + 10 ≤ 0x1680 ∨
      0x1680 < z ∧ z + 10 ≤ 0x2000 ∨ 0x3000 < z := by decide
  obtain ⟨z, hz, digit⟩ := List.any_eq_true.mp h
  have gap := apart z hz
  simp only [isDigitOf, Bool.and_eq_true, decide_eq_true_eq] at digit
  simp only [isSpace, Bool.or_eq_false_iff, Bool.and_eq_false_iff, decide_eq_false_iff_not,
    beq_eq_false_iff_ne]
  omega

/-! ## White space around -/

theorem trim_append {space : Char → Bool} {before s after : Str} (solid : s ≠ [])
    (lead : ∀ c ∈ before, space c = true) (trail : ∀ c ∈ after, space c = true)
    (first : Stops space s) (last : Stops space s.reverse) :
    trim space (before ++ s ++ after) = s := by
  have start : Stops space (s ++ after) := by
    cases s with
    | nil => exact absurd rfl solid
    | cons c s => exact stops_cons (first c rfl)
  have stop : (after.reverse ++ s.reverse).dropWhile space = s.reverse :=
    (takeWhile_append_stops (fun c hc => trail c (List.mem_reverse.mp hc)) last).2
  rw [trim, List.append_assoc, (takeWhile_append_stops lead start).2, List.reverse_append, stop,
    List.reverse_reverse]

/-- What is trimmed is white space, and what is left starts and ends with something else. -/
theorem trim_parts (space : Char → Bool) (s : Str) : ∃ before after,
    s = before ++ trim space s ++ after ∧ (∀ c ∈ before, space c = true) ∧
      ∀ c ∈ after, space c = true := by
  refine ⟨s.takeWhile space, ((s.dropWhile space).reverse.takeWhile space).reverse, ?_,
    fun c hc => List.mem_takeWhile_imp hc,
    fun c hc => List.mem_takeWhile_imp (List.mem_reverse.mp hc)⟩
  have tail : s.dropWhile space =
      trim space s ++ ((s.dropWhile space).reverse.takeWhile space).reverse := by
    rw [trim, ← List.reverse_append, List.takeWhile_append_dropWhile, List.reverse_reverse]
  rw [List.append_assoc, ← tail, List.takeWhile_append_dropWhile]

/-! ## Integers -/

/-- A sign, or none, and whether it makes the number negative. -/
def IsSign (sign : Str) (negative : Bool) : Prop :=
  if negative then sign = ['-'] else sign = [] ∨ sign = ['+']

/-- The texts that `int` reads as `n`: white space around, a sign or none, and decimal digits, as
many as the interpreter allows, with an underscore between some of them. -/
def Spells (s : Str) (n : Int) : Prop :=
  ∃ (before sign after : Str) (groups : List Str) (negative : Bool),
    s = before ++ (sign ++ ['_'].intercalate groups) ++ after ∧
    (∀ c ∈ before, isIntSpace c = true) ∧ (∀ c ∈ after, isIntSpace c = true) ∧
    IsSign sign negative ∧ groups ≠ [] ∧
    (∀ g ∈ groups, g ≠ [] ∧ ∀ c ∈ g, isDecimal c = true) ∧
    groups.flatten.length ≤ maxStrDigits ∧
    n = if negative then -(intOfDigits groups.flatten : Int) else intOfDigits groups.flatten

theorem isIntSpace_of_isDecimal {c : Char} (h : isDecimal c = true) : isIntSpace c = false := by
  rw [isIntSpace, isSpace_of_isDecimal h]
  rfl

/-- Groups of digits start and end with a digit. -/
theorem groups_ends {groups : List Str} (nonempty : groups ≠ [])
    (digits : ∀ g ∈ groups, g ≠ [] ∧ ∀ c ∈ g, isDecimal c = true) :
    (∃ c t, ['_'].intercalate groups = c :: t ∧ isDecimal c = true) ∧
      ∃ c t, (['_'].intercalate groups).reverse = c :: t ∧ isDecimal c = true := by
  induction groups with
  | nil => exact absurd rfl nonempty
  | cons g groups ih =>
    obtain ⟨filled, decimal⟩ := digits g List.mem_cons_self
    have start : ∀ u : Str, ∃ c t, g ++ u = c :: t ∧ isDecimal c = true := by
      intro u
      cases g with
      | nil => exact absurd rfl filled
      | cons c t => exact ⟨c, t ++ u, rfl, decimal c List.mem_cons_self⟩
    cases groups with
    | nil =>
      rw [List.intercalate_singleton]
      refine ⟨by simpa using start [], ?_⟩
      obtain ⟨c, t, same⟩ := List.exists_cons_of_ne_nil (List.reverse_ne_nil_iff.mpr filled)
      exact ⟨c, t, same, decimal c (List.mem_reverse.mp (same ▸ List.mem_cons_self))⟩
    | cons next groups =>
      obtain ⟨_, c, t, last, digit⟩ := ih (List.cons_ne_nil _ _) fun g hg =>
        digits g (List.mem_cons_of_mem _ hg)
      rw [List.intercalate_cons_cons, List.append_assoc]
      refine ⟨start _, c, t ++ (['_'] ++ g.reverse), ?_, digit⟩
      simp [last]

/-- Nothing else is in the groups and between them. -/
theorem groups_chars {groups : List Str} (digits : ∀ g ∈ groups, ∀ c ∈ g, isDecimal c = true) :
    ∀ c ∈ ['_'].intercalate groups, c = '_' ∨ isDecimal c = true := by
  induction groups with
  | nil => exact fun c hc => absurd hc List.not_mem_nil
  | cons g groups ih =>
    have here : ∀ c ∈ g, c = '_' ∨ isDecimal c = true :=
      fun c hc => .inr (digits g List.mem_cons_self c hc)
    have rest := ih fun g hg => digits g (List.mem_cons_of_mem _ hg)
    cases groups with
    | nil => simpa using here
    | cons next groups =>
      rw [List.intercalate_cons_cons]
      exact List.forall_mem_append.mpr ⟨List.forall_mem_append.mpr ⟨here, by simp⟩, rest⟩

/-- What the text of an integer is made of. -/
theorem Spells.chars {s : Str} {n : Int} (h : Spells s n) : ∀ c ∈ s,
    isIntSpace c = true ∨ c = '+' ∨ c = '-' ∨ c = '_' ∨ isDecimal c = true := by
  obtain ⟨before, sign, after, groups, negative, rfl, lead, trail, signed, _, digits, _, _⟩ := h
  have signs : ∀ c ∈ sign, c = '+' ∨ c = '-' := by
    cases negative with
    | true =>
      obtain rfl : sign = ['-'] := signed
      simp
    | false => obtain rfl | rfl : sign = [] ∨ sign = ['+'] := signed <;> simp
  have inside := groups_chars fun g hg => (digits g hg).2
  simp only [List.forall_mem_append]
  refine ⟨⟨fun c hc => .inl (lead c hc), fun c hc => ?_, fun c hc => ?_⟩,
    fun c hc => .inl (trail c hc)⟩
  · exact .inr ((signs c hc).imp_right .inl)
  · exact .inr (.inr (.inr (inside c hc)))

/-- The sign of a text and what follows it. -/
theorem exists_sign (t : Str) : ∃ sign unsigned negative, t = sign ++ unsigned ∧
    IsSign sign negative ∧ (t.head? = some '-' ↔ negative = true) ∧
    unsigned = if t.head? = some '-' ∨ t.head? = some '+' then t.tail else t := by
  cases t with
  | nil => exact ⟨[], [], false, rfl, .inl rfl, by simp, rfl⟩
  | cons c t =>
    by_cases minus : c = '-'
    · subst minus
      exact ⟨['-'], t, true, rfl, rfl, by simp, rfl⟩
    · by_cases plus : c = '+'
      · subst plus
        exact ⟨['+'], t, false, rfl, .inr rfl, by simp, rfl⟩
      · exact ⟨[], c :: t, false, rfl, .inl rfl, by simp [minus], by simp [minus, plus]⟩

/-- The sign is all there is before the digits. -/
theorem sign_unique {sign u : Str} {negative : Bool} (signed : IsSign sign negative)
    (digit : ∃ c t, u = c :: t ∧ isDecimal c = true) :
    ((sign ++ u).head? = some '-' ↔ negative = true) ∧
      (if (sign ++ u).head? = some '-' ∨ (sign ++ u).head? = some '+' then (sign ++ u).tail
        else sign ++ u) = u := by
  obtain ⟨c, t, rfl, decimal⟩ := digit
  have other : c ≠ '-' ∧ c ≠ '+' := by
    constructor <;> rintro rfl <;> exact absurd decimal (by decide)
  cases negative with
  | true =>
    obtain rfl : sign = ['-'] := signed
    exact ⟨by simp, rfl⟩
  | false =>
    obtain rfl | rfl : sign = [] ∨ sign = ['+'] := signed
    · simp [other]
    · exact ⟨by simp, rfl⟩

/-- An integer starts and ends with no white space. -/
theorem numeral_stops {space : Char → Bool} {sign : Str} {groups : List Str} {negative : Bool}
    (signs : space '-' = false ∧ space '+' = false)
    (apart : ∀ c, isDecimal c = true → space c = false) (signed : IsSign sign negative)
    (nonempty : groups ≠ []) (digits : ∀ g ∈ groups, g ≠ [] ∧ ∀ c ∈ g, isDecimal c = true) :
    Stops space (sign ++ ['_'].intercalate groups) ∧
      Stops space (sign ++ ['_'].intercalate groups).reverse := by
  obtain ⟨⟨c, t, first, digit⟩, d, u, last, digit'⟩ := groups_ends nonempty digits
  constructor
  · cases negative with
    | true =>
      obtain rfl : sign = ['-'] := signed
      exact stops_cons signs.1
    | false =>
      obtain rfl | rfl : sign = [] ∨ sign = ['+'] := signed
      · rw [List.nil_append, first]
        exact stops_cons (apart c digit)
      · exact stops_cons signs.2
  · rw [List.reverse_append, last]
    exact stops_cons (apart d digit')

theorem pyInt_eq_some_iff {s : Str} {n : Int} : pyInt s = some n ↔ Spells s n := by
  constructor
  · intro read
    obtain ⟨before, after, whole, lead, trail⟩ := trim_parts isIntSpace s
    obtain ⟨sign, unsigned, negative, parts, signed, minus, rest⟩ := exists_sign (trim isIntSpace s)
    unfold pyInt at read
    dsimp only at read
    rw [← rest] at read
    simp only [minus, Option.ite_none_right_eq_some, Option.some.injEq, List.all_eq_true,
       Bool.and_eq_true, Bool.not_eq_true', List.isEmpty_eq_false_iff] at read
    obtain ⟨⟨digits, few⟩, value⟩ := read
    refine ⟨before, sign, after, unsigned.splitOn '_', negative, ?_, lead, trail, signed,
      List.splitOn_ne_nil _ _, digits, few, value.symm⟩
    rw [List.intercalate_splitOn, ← parts]
    exact whole
  · rintro ⟨before, sign, after, groups, negative, rfl, lead, trail, signed, nonempty, digits, few,
      rfl⟩
    obtain ⟨⟨c, t, first, digit⟩, -⟩ := groups_ends nonempty digits
    obtain ⟨minus, rest⟩ := sign_unique signed ⟨c, t, first, digit⟩
    obtain ⟨start, stop⟩ := @numeral_stops isIntSpace _ _ _ ⟨rfl, rfl⟩
      (fun _ => isIntSpace_of_isDecimal) signed nonempty digits
    have core : trim isIntSpace (before ++ (sign ++ ['_'].intercalate groups) ++ after) =
        sign ++ ['_'].intercalate groups :=
      trim_append (by simp [first]) lead trail start stop
    have cut : (['_'].intercalate groups).splitOn '_' = groups :=
      List.splitOn_intercalate '_' (fun g hg mem =>
        absurd ((digits g hg).2 '_' mem) (by decide)) nonempty
    have all : (groups.all fun g => !g.isEmpty && g.all isDecimal) = true := by
      simpa using digits
    unfold pyInt
    dsimp only
    rw [core, rest, cut, if_pos ⟨all, few⟩]
    simp only [minus]

/-- An integer without the white space around it. -/
theorem Spells.core {s : Str} {n : Int} (h : Spells s n) : ∃ before t after,
    s = before ++ t ++ after ∧ (∀ c ∈ before, isSpace c = true) ∧ (∀ c ∈ after, isSpace c = true) ∧
      Spells t n ∧ t ≠ [] ∧ Stops isSpace t ∧ Stops isSpace t.reverse := by
  obtain ⟨before, sign, after, groups, negative, rfl, lead, trail, signed, nonempty, digits, few,
    rfl⟩ := h
  obtain ⟨⟨c, t, first, -⟩, -⟩ := groups_ends nonempty digits
  obtain ⟨start, stop⟩ := numeral_stops ⟨rfl, rfl⟩ (fun _ => isSpace_of_isDecimal) signed nonempty
    digits
  have wide : ∀ {c : Char}, isIntSpace c = true → isSpace c = true :=
    fun h => (Bool.and_eq_true_iff.mp h).1
  exact ⟨before, sign ++ ['_'].intercalate groups, after, rfl, fun c hc => wide (lead c hc),
    fun c hc => wide (trail c hc), ⟨[], sign, [], groups, negative, by simp, nofun, nofun, signed,
      nonempty, digits, few, rfl⟩, by simp [first], start, stop⟩

/-- `int(s.strip())` reads the integers with any white space around them. -/
theorem pyInt_strip_eq_some_iff {s : Str} {n : Int} : pyInt (strip s) = some n ↔
    ∃ before t after, s = before ++ t ++ after ∧ (∀ c ∈ before, isSpace c = true) ∧
      (∀ c ∈ after, isSpace c = true) ∧ Spells t n := by
  rw [pyInt_eq_some_iff]
  constructor
  · intro spelled
    obtain ⟨before, after, whole, lead, trail⟩ := trim_parts isSpace s
    exact ⟨before, strip s, after, whole, lead, trail, spelled⟩
  · rintro ⟨before, t, after, rfl, lead, trail, spelled⟩
    obtain ⟨lead', core, trail', rfl, white, white', spelled, solid, first, last⟩ := spelled.core
    have whole : before ++ (lead' ++ core ++ trail') ++ after =
        (before ++ lead') ++ core ++ (trail' ++ after) := by simp
    rw [whole, strip, trim_append solid (List.forall_mem_append.mpr ⟨lead, white⟩)
      (List.forall_mem_append.mpr ⟨white', trail⟩) first last]
    exact spelled

end Syrotp.Py
