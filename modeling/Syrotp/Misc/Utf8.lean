import Syrotp.Misc.JsText

/-!
# UTF-8

JavaScript strings are written as UTF-8 with U+FFFD in place of each lone surrogate. Bytes are read
one at a time: a byte that cannot go on a sequence ends it with U+FFFD and is read again as a first
byte. A string without lone surrogates is read back as it was.
-/

namespace Syrotp

/-! ## Code points of a string -/

def isHighSurrogate (c : UInt16) : Bool := 0xD800 ≤ c && c ≤ 0xDBFF

def isLowSurrogate (c : UInt16) : Bool := 0xDC00 ≤ c && c ≤ 0xDFFF

def isSurrogate (c : UInt16) : Bool := isHighSurrogate c || isLowSurrogate c

/-- U+FFFD. -/
def replacement : Nat := 0xFFFD

/-- The code point of a unit that is not half of a pair. -/
def loneCodePoint (c : UInt16) : Nat :=
  if isSurrogate c then replacement else c.toNat

/-- The code point of a pair. -/
def pairCodePoint (c d : UInt16) : Nat :=
  0x10000 + (c.toNat - 0xD800) * 0x400 + (d.toNat - 0xDC00)

/-- The code points, with U+FFFD for lone surrogates. -/
def codePoints : Text → List Nat
  | [] => []
  | [c] => [loneCodePoint c]
  | c :: d :: rest =>
    if isHighSurrogate c && isLowSurrogate d then pairCodePoint c d :: codePoints rest
    else loneCodePoint c :: codePoints (d :: rest)

/-- `s.isWellFormed()`. -/
def isWellFormed : Text → Bool
  | [] => true
  | [c] => !isSurrogate c
  | c :: d :: rest =>
    if isHighSurrogate c && isLowSurrogate d then isWellFormed rest
    else !isSurrogate c && isWellFormed (d :: rest)

/-- Text without surrogates is well formed. -/
theorem isWellFormed_of_single (s : Text) (single : ∀ c ∈ s, isSurrogate c = false) :
    isWellFormed s = true := by
  induction s with
  | nil => rfl
  | cons c s ih =>
    have here := single c List.mem_cons_self
    have rest := ih fun d hd => single d (List.mem_cons_of_mem c hd)
    cases s with
    | nil => simp [isWellFormed, here]
    | cons d s =>
      have notHigh : isHighSurrogate c = false := (Bool.or_eq_false_iff.mp here).1
      simp [isWellFormed, notHigh, here, rest]

/-- The units of a code point. -/
def toUtf16 (n : Nat) : Text :=
  if n < 0x10000 then [n.toUInt16]
  else [(0xD800 + (n - 0x10000) / 0x400).toUInt16, (0xDC00 + (n - 0x10000) % 0x400).toUInt16]

/-- A code point that is not a surrogate. -/
def IsScalar (n : Nat) : Prop := n < 0xD800 ∨ 0xDFFF < n ∧ n < 0x110000

theorem loneCodePoint_scalar (c : UInt16) : IsScalar (loneCodePoint c) := by
  have range := c.toNat_lt
  unfold loneCodePoint
  split
  · exact .inr (by decide)
  · next single =>
    simp only [isSurrogate, isHighSurrogate, isLowSurrogate, Bool.or_eq_true, Bool.and_eq_true,
      decide_eq_true_eq, UInt16.le_iff_toNat_le, UInt16.reduceToNat] at single
    unfold IsScalar
    omega

theorem pair_range {c d : UInt16} (pair : (isHighSurrogate c && isLowSurrogate d) = true) :
    0xD800 ≤ c.toNat ∧ c.toNat ≤ 0xDBFF ∧ 0xDC00 ≤ d.toNat ∧ d.toNat ≤ 0xDFFF := by
  simp only [isHighSurrogate, isLowSurrogate, Bool.and_eq_true, decide_eq_true_eq,
    UInt16.le_iff_toNat_le, UInt16.reduceToNat] at pair
  omega

theorem codePoints_scalar {s : Text} : ∀ n ∈ codePoints s, IsScalar n := by
  fun_induction codePoints s with
  | case1 => exact nofun
  | case2 c =>
    intro n hn
    rw [List.mem_singleton.mp hn]
    exact loneCodePoint_scalar c
  | case3 c d rest pair ih =>
    have range := pair_range pair
    intro n hn
    rcases List.mem_cons.mp hn with same | later
    · rw [same]
      unfold IsScalar pairCodePoint
      omega
    · exact ih n later
  | case4 c d rest _ ih =>
    intro n hn
    rcases List.mem_cons.mp hn with rfl | later
    · exact loneCodePoint_scalar c
    · exact ih n later

theorem toUInt16_eq {n : ℕ} {c : UInt16} (same : n = c.toNat) : n.toUInt16 = c := by
  rw [same]
  exact UInt16.ofNat_toNat

theorem toUtf16_lone {c : UInt16} (single : isSurrogate c = false) :
    toUtf16 (loneCodePoint c) = [c] := by
  have range := c.toNat_lt
  rw [loneCodePoint, single, toUtf16]
  simp only [Bool.false_eq_true, if_false]
  rw [if_pos (by omega), toUInt16_eq rfl]

theorem toUtf16_pair {c d : UInt16} (pair : (isHighSurrogate c && isLowSurrogate d) = true) :
    toUtf16 (pairCodePoint c d) = [c, d] := by
  have range := pair_range pair
  have large : ¬pairCodePoint c d < 0x10000 := by
    unfold pairCodePoint
    omega
  have high : (0xD800 + (pairCodePoint c d - 0x10000) / 0x400).toUInt16 = c := by
    apply toUInt16_eq
    unfold pairCodePoint
    omega
  have low : (0xDC00 + (pairCodePoint c d - 0x10000) % 0x400).toUInt16 = d := by
    apply toUInt16_eq
    unfold pairCodePoint
    omega
  rw [toUtf16, if_neg large, high, low]

/-- A string without lone surrogates is known from its code points. -/
theorem flatMap_toUtf16 {s : Text} (wellFormed : isWellFormed s = true) :
    (codePoints s).flatMap toUtf16 = s := by
  fun_induction codePoints s with
  | case1 => rfl
  | case2 c =>
    rw [isWellFormed, Bool.not_eq_true'] at wellFormed
    rw [List.flatMap_singleton, toUtf16_lone wellFormed]
  | case3 c d rest pair ih =>
    rw [isWellFormed, if_pos pair] at wellFormed
    rw [List.flatMap_cons, toUtf16_pair pair, ih wellFormed]
    rfl
  | case4 c d rest apart ih =>
    rw [isWellFormed, if_neg apart, Bool.and_eq_true, Bool.not_eq_true'] at wellFormed
    rw [List.flatMap_cons, toUtf16_lone wellFormed.1, ih wellFormed.2]
    rfl

theorem codePoints_single {c : UInt16} {rest : Text} (single : isSurrogate c = false) :
    codePoints (c :: rest) = c.toNat :: codePoints rest := by
  have high : isHighSurrogate c = false := (Bool.or_eq_false_iff.mp single).1
  have point : loneCodePoint c = c.toNat := if_neg (Bool.eq_false_iff.mp single)
  cases rest with
  | nil => exact congrArg (fun n => [n]) point
  | cons d rest =>
    rw [codePoints, high, point]
    rfl

theorem codePoints_pair {c d : UInt16} {rest : Text}
    (pair : (isHighSurrogate c && isLowSurrogate d) = true) :
    codePoints (c :: d :: rest) = pairCodePoint c d :: codePoints rest := by
  rw [codePoints, if_pos pair]

/-- Code points are known from their units. -/
theorem codePoints_toUtf16 {n : ℕ} {rest : Text} (scalar : IsScalar n) :
    codePoints (toUtf16 n ++ rest) = n :: codePoints rest := by
  unfold IsScalar at scalar
  unfold toUtf16
  by_cases small : n < 0x10000
  · have value : n.toUInt16.toNat = n := UInt16.toNat_ofNat_of_lt' small
    have single : isSurrogate n.toUInt16 = false := by
      simp only [isSurrogate, isHighSurrogate, isLowSurrogate, Bool.or_eq_false_iff,
        Bool.and_eq_false_iff, decide_eq_false_iff_not, UInt16.le_iff_toNat_le, value,
        UInt16.reduceToNat]
      omega
    rw [if_pos small, List.singleton_append, codePoints_single single, value]
  · have high : (0xD800 + (n - 0x10000) / 0x400).toUInt16.toNat = 0xD800 + (n - 0x10000) / 0x400 :=
      UInt16.toNat_ofNat_of_lt' (by change _ < 0x10000; omega)
    have low : (0xDC00 + (n - 0x10000) % 0x400).toUInt16.toNat = 0xDC00 + (n - 0x10000) % 0x400 :=
      UInt16.toNat_ofNat_of_lt' (by change _ < 0x10000; omega)
    have pair : (isHighSurrogate (0xD800 + (n - 0x10000) / 0x400).toUInt16 &&
        isLowSurrogate (0xDC00 + (n - 0x10000) % 0x400).toUInt16) = true := by
      simp only [isHighSurrogate, isLowSurrogate, Bool.and_eq_true, decide_eq_true_eq,
        UInt16.le_iff_toNat_le, high, low, UInt16.reduceToNat]
      omega
    have value : pairCodePoint (0xD800 + (n - 0x10000) / 0x400).toUInt16
        (0xDC00 + (n - 0x10000) % 0x400).toUInt16 = n := by
      unfold pairCodePoint
      simp only [high, low]
      omega
    rw [if_neg small, List.cons_append, List.singleton_append, codePoints_pair pair, value]

theorem codePoints_flatMap {points : List ℕ} (scalar : ∀ n ∈ points, IsScalar n) :
    codePoints (points.flatMap toUtf16) = points := by
  induction points with
  | nil => rfl
  | cons n points ih =>
    rw [List.flatMap_cons, codePoints_toUtf16 (scalar n List.mem_cons_self),
      ih fun m hm => scalar m (List.mem_cons_of_mem n hm)]

/-! ## Bytes of a code point -/

/-- The sequence of a code point. -/
def utf8Sequence (n : Nat) : List Nat :=
  if n < 0x80 then [n]
  else if n < 0x800 then [0xC0 + n / 0x40, 0x80 + n % 0x40]
  else if n < 0x10000 then [0xE0 + n / 0x1000, 0x80 + n / 0x40 % 0x40, 0x80 + n % 0x40]
  else [0xF0 + n / 0x40000, 0x80 + n / 0x1000 % 0x40, 0x80 + n / 0x40 % 0x40, 0x80 + n % 0x40]

/-- `Buffer.from(s, "utf8")`. -/
def toUtf8 (s : Text) : List UInt8 :=
  ((codePoints s).flatMap utf8Sequence).map (·.toUInt8)

/-! ## Reading bytes -/

/-- What a sequence still needs: how many bytes, between which the next one is, and the value so
far. -/
structure Unfinished where
  owed : Nat
  least : Nat
  most : Nat
  value : Nat

/-- What a byte says that begins a sequence. -/
inductive FirstByte where
  | complete (n : Nat)
  | unfinished (u : Unfinished)

/-- No sequence is longer than it need be, and none is of a surrogate or too large. -/
def firstByte (b : Nat) : FirstByte :=
  if b < 0x80 then .complete b
  else if b < 0xC2 then .complete replacement
  else if b < 0xE0 then .unfinished ⟨1, 0x80, 0xBF, b - 0xC0⟩
  else if b < 0xF0 then
    .unfinished ⟨2, if b = 0xE0 then 0xA0 else 0x80, if b = 0xED then 0x9F else 0xBF, b - 0xE0⟩
  else if b < 0xF5 then
    .unfinished ⟨3, if b = 0xF0 then 0x90 else 0x80, if b = 0xF4 then 0x8F else 0xBF, b - 0xF0⟩
  else .complete replacement

/-- The code points of bytes, with U+FFFD for what is no sequence. -/
def readUtf8 : Option Unfinished → List Nat → List Nat
  | none, [] => []
  | some _, [] => [replacement]
  | none, b :: bytes =>
    match firstByte b with
    | .complete n => n :: readUtf8 none bytes
    | .unfinished u => readUtf8 (some u) bytes
  | some u, b :: bytes =>
    if u.least ≤ b ∧ b ≤ u.most then
      let value := u.value * 0x40 + (b - 0x80)
      if u.owed = 1 then value :: readUtf8 none bytes
      else readUtf8 (some ⟨u.owed - 1, 0x80, 0xBF, value⟩) bytes
    else
      replacement ::
        match firstByte b with
        | .complete n => n :: readUtf8 none bytes
        | .unfinished u => readUtf8 (some u) bytes

/-- `buf.toString("utf8")`. -/
def fromUtf8 (bytes : List UInt8) : Text :=
  (readUtf8 none (bytes.map UInt8.toNat)).flatMap toUtf16

theorem readUtf8_last {least most value b : ℕ} {bytes : List ℕ} (lower : least ≤ b)
    (upper : b ≤ most) : readUtf8 (some ⟨1, least, most, value⟩) (b :: bytes) =
      (value * 0x40 + (b - 0x80)) :: readUtf8 none bytes := by
  rw [readUtf8, if_pos ⟨lower, upper⟩, if_pos rfl]

theorem readUtf8_next {k least most value b : ℕ} {bytes : List ℕ} (lower : least ≤ b)
    (upper : b ≤ most) : readUtf8 (some ⟨k + 2, least, most, value⟩) (b :: bytes) =
      readUtf8 (some ⟨k + 1, 0x80, 0xBF, value * 0x40 + (b - 0x80)⟩) bytes := by
  rw [readUtf8, if_pos ⟨lower, upper⟩, if_neg (Nat.succ_succ_ne_one k)]
  rfl

theorem readUtf8_first {b : ℕ} {bytes : List ℕ} {u : Unfinished}
    (first : firstByte b = .unfinished u) :
    readUtf8 none (b :: bytes) = readUtf8 (some u) bytes := by
  rw [readUtf8, first]

/-- The sequence of a code point is read as that code point. -/
theorem readUtf8_sequence {n : ℕ} {bytes : List ℕ} (scalar : IsScalar n) :
    readUtf8 none (utf8Sequence n ++ bytes) = n :: readUtf8 none bytes := by
  unfold IsScalar at scalar
  unfold utf8Sequence
  by_cases one : n < 0x80
  · have first : firstByte n = .complete n := if_pos one
    rw [if_pos one, List.singleton_append, readUtf8, first]
  · rw [if_neg one]
    by_cases two : n < 0x800
    · have first : firstByte (0xC0 + n / 0x40) = .unfinished ⟨1, 0x80, 0xBF, n / 0x40⟩ := by
        rw [firstByte, if_neg (by omega), if_neg (by omega), if_pos (by omega),
          Nat.add_sub_cancel_left]
      have value : n / 0x40 * 0x40 + (0x80 + n % 0x40 - 0x80) = n := by omega
      rw [if_pos two, List.cons_append, List.singleton_append, readUtf8_first first,
        readUtf8_last (by omega) (by omega), value]
    · rw [if_neg two]
      by_cases three : n < 0x10000
      · have first : firstByte (0xE0 + n / 0x1000) = .unfinished ⟨2,
            if 0xE0 + n / 0x1000 = 0xE0 then 0xA0 else 0x80,
            if 0xE0 + n / 0x1000 = 0xED then 0x9F else 0xBF, n / 0x1000⟩ := by
          rw [firstByte, if_neg (by omega), if_neg (by omega), if_neg (by omega),
            if_pos (by omega), Nat.add_sub_cancel_left]
        have lower : (if 0xE0 + n / 0x1000 = 0xE0 then 0xA0 else 0x80) ≤ 0x80 + n / 0x40 % 0x40 := by
          split <;> omega
        have upper : 0x80 + n / 0x40 % 0x40 ≤ if 0xE0 + n / 0x1000 = 0xED then 0x9F else 0xBF := by
          split <;> omega
        have value : (n / 0x1000 * 0x40 + (0x80 + n / 0x40 % 0x40 - 0x80)) * 0x40 +
            (0x80 + n % 0x40 - 0x80) = n := by omega
        rw [if_pos three, List.cons_append, List.cons_append, List.singleton_append,
          readUtf8_first first, readUtf8_next lower upper, readUtf8_last (by omega) (by omega),
          value]
      · have first : firstByte (0xF0 + n / 0x40000) = .unfinished ⟨3,
            if 0xF0 + n / 0x40000 = 0xF0 then 0x90 else 0x80,
            if 0xF0 + n / 0x40000 = 0xF4 then 0x8F else 0xBF, n / 0x40000⟩ := by
          rw [firstByte, if_neg (by omega), if_neg (by omega), if_neg (by omega),
            if_neg (by omega), if_pos (by omega), Nat.add_sub_cancel_left]
        have lower : (if 0xF0 + n / 0x40000 = 0xF0 then 0x90 else 0x80) ≤
            0x80 + n / 0x1000 % 0x40 := by split <;> omega
        have upper : 0x80 + n / 0x1000 % 0x40 ≤
            if 0xF0 + n / 0x40000 = 0xF4 then 0x8F else 0xBF := by split <;> omega
        have value : ((n / 0x40000 * 0x40 + (0x80 + n / 0x1000 % 0x40 - 0x80)) * 0x40 +
            (0x80 + n / 0x40 % 0x40 - 0x80)) * 0x40 + (0x80 + n % 0x40 - 0x80) = n := by omega
        rw [if_neg three, List.cons_append, List.cons_append, List.cons_append,
          List.singleton_append, readUtf8_first first, readUtf8_next lower upper,
          readUtf8_next (by omega) (by omega), readUtf8_last (by omega) (by omega), value]

theorem readUtf8_sequences {points : List ℕ} (scalar : ∀ n ∈ points, IsScalar n) :
    readUtf8 none (points.flatMap utf8Sequence) = points := by
  induction points with
  | nil => rfl
  | cons n points ih =>
    rw [List.flatMap_cons, readUtf8_sequence (scalar n List.mem_cons_self),
      ih fun m hm => scalar m (List.mem_cons_of_mem n hm)]

theorem utf8Sequence_lt {n b : ℕ} (scalar : IsScalar n) (h : b ∈ utf8Sequence n) : b < 256 := by
  unfold IsScalar at scalar
  unfold utf8Sequence at h
  split at h
  · rw [List.mem_singleton] at h
    omega
  · split at h
    · simp only [List.mem_cons, List.not_mem_nil, or_false] at h
      omega
    · split at h <;> simp only [List.mem_cons, List.not_mem_nil, or_false] at h <;> omega

theorem map_toUInt8 {points : List ℕ} (scalar : ∀ n ∈ points, IsScalar n) :
    ((points.flatMap utf8Sequence).map (·.toUInt8)).map UInt8.toNat =
      points.flatMap utf8Sequence := by
  have same : ∀ b ∈ points.flatMap utf8Sequence,
      (UInt8.toNat ∘ fun n : ℕ => n.toUInt8) b = b := by
    intro b hb
    obtain ⟨n, hn, inside⟩ := List.mem_flatMap.mp hb
    exact UInt8.toNat_ofNat_of_lt' (utf8Sequence_lt (scalar n hn) inside)
  rw [List.map_map, List.map_congr_left same, List.map_id']

/-- A string without lone surrogates is read back from its bytes. -/
theorem fromUtf8_toUtf8 {s : Text} (wellFormed : isWellFormed s = true) :
    fromUtf8 (toUtf8 s) = s := by
  rw [fromUtf8, toUtf8, map_toUInt8 codePoints_scalar, readUtf8_sequences codePoints_scalar,
    flatMap_toUtf16 wellFormed]

/-- The bytes are the sequences of code points. -/
def IsUtf8 (bytes : List UInt8) : Prop :=
  ∃ points : List ℕ, (∀ n ∈ points, IsScalar n) ∧
    bytes = (points.flatMap utf8Sequence).map (·.toUInt8)

theorem isUtf8_toUtf8 (s : Text) : IsUtf8 (toUtf8 s) := ⟨codePoints s, codePoints_scalar, rfl⟩

/-- Bytes that are UTF-8 are written again as they were read. -/
theorem toUtf8_fromUtf8 {bytes : List UInt8} (h : IsUtf8 bytes) :
    toUtf8 (fromUtf8 bytes) = bytes := by
  obtain ⟨points, scalar, rfl⟩ := h
  rw [fromUtf8, map_toUInt8 scalar, readUtf8_sequences scalar, toUtf8, codePoints_flatMap scalar]

end Syrotp
