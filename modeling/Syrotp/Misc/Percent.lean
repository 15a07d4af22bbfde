import Syrotp.Misc.IpLiteral
import Syrotp.Misc.Utf8

/-!
# Percent-encoding

Bytes in a URL: a byte stands for itself if its character is in a safe set, else it is spelt `%` and
two digits. What is encoded can be read back whatever the set is, as long as it is of ASCII
characters other than `%`; and two encoders agree on just the bytes that both or neither hold safe.
-/

namespace Syrotp

namespace Percent

/-- A digit in upper case. -/
def upperDigit (n : Nat) : UInt16 := if n < 10 then (48 + n).toUInt16 else (55 + n).toUInt16

def escape (b : UInt8) : Text := [37, upperDigit (b.toNat / 16), upperDigit (b.toNat % 16)]

def encodeByte (safe : UInt16 → Bool) (b : UInt8) : Text :=
  if safe b.toUInt16 then [b.toUInt16] else escape b

def encode (safe : UInt16 → Bool) (bytes : List UInt8) : Text := bytes.flatMap (encodeByte safe)

/-- What is read: `none` where an escape is none, or a character is not ASCII. -/
def decode : Text → Option (List UInt8)
  | [] => some []
  | c :: rest =>
    if c = 37 then
      match rest with
      | h :: l :: rest' =>
        if Text.isHexDigit h && Text.isHexDigit l then
          (decode rest').map ((Text.hexDigit h * 16 + Text.hexDigit l).toUInt8 :: ·)
        else none
      | _ => none
    else if c < 128 then (decode rest).map (c.toUInt8 :: ·)
    else none

/-- Safe characters are ASCII characters and not `%`. -/
structure Safe (safe : UInt16 → Bool) : Prop where
  ascii : ∀ c, safe c = true → c < 128
  percent : safe 37 = false

theorem isHexDigit_upperDigit : ∀ n : Fin 16, Text.isHexDigit (upperDigit n) = true := by decide

theorem hexDigit_upperDigit : ∀ n : Fin 16, Text.hexDigit (upperDigit n) = n := by decide

variable {safe safe' : UInt16 → Bool} {bytes : List UInt8} {b : UInt8}

theorem encode_cons : encode safe (b :: bytes) = encodeByte safe b ++ encode safe bytes :=
  List.flatMap_cons

theorem decode_escape (rest : Text) :
    decode (escape b ++ rest) = (decode rest).map (b :: ·) := by
  have range := b.toNat_lt
  have high := isHexDigit_upperDigit ⟨b.toNat / 16, by omega⟩
  have low := isHexDigit_upperDigit ⟨b.toNat % 16, by omega⟩
  have value : (Text.hexDigit (upperDigit (b.toNat / 16)) * 16 +
      Text.hexDigit (upperDigit (b.toNat % 16))).toUInt8 = b := by
    rw [hexDigit_upperDigit ⟨b.toNat / 16, by omega⟩, hexDigit_upperDigit ⟨b.toNat % 16, by omega⟩]
    show (b.toNat / 16 * 16 + b.toNat % 16).toUInt8 = b
    rw [Nat.div_add_mod']
    exact UInt8.ofNat_toNat
  show decode (37 :: upperDigit (b.toNat / 16) :: upperDigit (b.toNat % 16) :: rest) = _
  rw [decode, if_pos rfl]
  simp only [high, low, Bool.and_self, if_true, value]

/-- Any other character is read as it is. -/
theorem decode_cons {c : UInt16} (other : c ≠ 37) (ascii : c < 128) (rest : Text) :
    decode (c :: rest) = (decode rest).map (c.toUInt8 :: ·) := by
  cases rest with
  | nil => simp [decode, other, ascii]
  | cons d rest =>
    cases rest with
    | nil => rw [decode, if_neg other, if_pos ascii]; simp
    | cons e rest => rw [decode, if_neg other, if_pos ascii]

theorem decode_encodeByte (ok : Safe safe) (rest : Text) :
    decode (encodeByte safe b ++ rest) = (decode rest).map (b :: ·) := by
  unfold encodeByte
  by_cases plain : safe b.toUInt16 = true
  · have other : b.toUInt16 ≠ 37 := by
      intro same
      rw [same, ok.percent] at plain
      cases plain
    rw [if_pos plain, List.singleton_append, decode_cons other (ok.ascii _ plain)]
    simp
  · rw [if_neg plain]
    exact decode_escape rest

/-- What is encoded is read back. -/
theorem decode_encode (ok : Safe safe) : decode (encode safe bytes) = some bytes := by
  induction bytes with
  | nil => rfl
  | cons b bytes ih => rw [encode_cons, decode_encodeByte ok, ih, Option.map_some]

/-- The characters of an encoding. -/
theorem mem_encode {c : UInt16} (h : c ∈ encode safe bytes) :
    safe c = true ∨ c = 37 ∨ ∃ n : Fin 16, c = upperDigit n := by
  obtain ⟨b, _, hc⟩ := List.mem_flatMap.mp h
  have range := b.toNat_lt
  unfold encodeByte at hc
  by_cases plain : safe b.toUInt16 = true
  · rw [if_pos plain] at hc
    rw [List.mem_singleton.mp hc]
    exact .inl plain
  · rw [if_neg plain] at hc
    simp only [escape, List.mem_cons, List.not_mem_nil, or_false] at hc
    rcases hc with rfl | rfl | rfl
    · exact .inr (.inl rfl)
    · exact .inr (.inr ⟨⟨b.toNat / 16, by omega⟩, rfl⟩)
    · exact .inr (.inr ⟨⟨b.toNat % 16, by omega⟩, rfl⟩)

/-- Two encoders agree if and only if no byte is safe for just one of them. -/
theorem encode_eq_iff (ok : Safe safe) (ok' : Safe safe') :
    encode safe bytes = encode safe' bytes ↔
      ∀ b ∈ bytes, safe b.toUInt16 = safe' b.toUInt16 := by
  induction bytes with
  | nil => simp [encode]
  | cons b bytes ih =>
    rw [encode_cons, encode_cons, List.forall_mem_cons, ← ih]
    unfold encodeByte
    have apart : ∀ {safe : UInt16 → Bool}, Safe safe → safe b.toUInt16 = true →
        b.toUInt16 ≠ 37 := by
      intro safe ok plain same
      rw [same, ok.percent] at plain
      cases plain
    by_cases plain : safe b.toUInt16 = true
    · by_cases plain' : safe' b.toUInt16 = true
      · simp [plain, plain']
      · simp [plain, plain', escape, apart ok plain]
    · by_cases plain' : safe' b.toUInt16 = true
      · simp [plain, plain', escape, (apart ok' plain').symm]
      · simp [plain, plain']

end Percent

/-! ## ASCII characters in UTF-8 -/

theorem mem_utf8Sequence {n m : Nat} (scalar : IsScalar n) (h : m ∈ utf8Sequence n) :
    m < 256 ∧ (m < 128 → n = m) := by
  unfold IsScalar at scalar
  unfold utf8Sequence at h
  split at h
  · rw [List.mem_singleton.mp h]
    omega
  · split at h
    · simp only [List.mem_cons, List.not_mem_nil, or_false] at h
      omega
    · split at h
      · simp only [List.mem_cons, List.not_mem_nil, or_false] at h
        omega
      · simp only [List.mem_cons, List.not_mem_nil, or_false] at h
        omega

/-- An ASCII byte is there for a code point of its own. -/
theorem mem_toUtf8_iff {s : Text} {b : UInt8} (ascii : b < 128) :
    b ∈ toUtf8 s ↔ b.toNat ∈ codePoints s := by
  have small : b.toNat < 128 := UInt8.lt_iff_toNat_lt.mp ascii
  constructor
  · intro h
    obtain ⟨m, hm, rfl⟩ := List.mem_map.mp h
    obtain ⟨n, hn, hm⟩ := List.mem_flatMap.mp hm
    obtain ⟨range, same⟩ := mem_utf8Sequence (codePoints_scalar n hn) hm
    have value : m.toUInt8.toNat = m := UInt8.toNat_ofNat_of_lt' range
    rw [value] at small ⊢
    rwa [← same small]
  · intro h
    refine List.mem_map.mpr ⟨b.toNat, List.mem_flatMap.mpr ⟨b.toNat, h, ?_⟩, UInt8.ofNat_toNat⟩
    simp [utf8Sequence, small]

/-- And a code point below the surrogates for a unit of its own. -/
theorem mem_codePoints_iff {s : Text} {n : Nat} (small : n < 128)
    (wellFormed : isWellFormed s = true) : n ∈ codePoints s ↔ n.toUInt16 ∈ s := by
  have unit : ∀ c : UInt16, n = c.toNat ↔ n.toUInt16 = c := by
    intro c
    constructor
    · intro same
      rw [same]
      exact UInt16.ofNat_toNat
    · intro same
      rw [← same]
      exact (UInt16.toNat_ofNat_of_lt' (by change n < 65536; omega)).symm
  fun_induction codePoints s with
  | case1 => simp
  | case2 c =>
    have single : isSurrogate c = false := by simpa [isWellFormed] using wellFormed
    rw [loneCodePoint, single]
    simp [unit c]
  | case3 c d rest pair ih =>
    rw [isWellFormed, if_pos pair] at wellFormed
    have range := pair_range pair
    have notHigh : n.toUInt16 ≠ c := by
      intro same
      have := (unit c).mpr same
      omega
    have notLow : n.toUInt16 ≠ d := by
      intro same
      have := (unit d).mpr same
      omega
    have large : n ≠ pairCodePoint c d := by
      unfold pairCodePoint
      omega
    simp [ih wellFormed, notHigh, notLow, large]
  | case4 c d rest apart ih =>
    rw [isWellFormed, if_neg apart, Bool.and_eq_true, Bool.not_eq_true'] at wellFormed
    have later := ih wellFormed.2
    rw [loneCodePoint, wellFormed.1, List.mem_cons, List.mem_cons]
    exact or_congr (unit c) later

/-- An ASCII byte is there for the character of its own. -/
theorem mem_toUtf8_ascii {s : Text} {b : UInt8} (ascii : b < 128)
    (wellFormed : isWellFormed s = true) : b ∈ toUtf8 s ↔ b.toUInt16 ∈ s := by
  have small : b.toNat < 128 := UInt8.lt_iff_toNat_lt.mp ascii
  have unit : b.toNat.toUInt16 = b.toUInt16 := by
    apply UInt16.toNat_inj.mp
    rw [UInt8.toNat_toUInt16]
    exact UInt16.toNat_ofNat_of_lt' (by change b.toNat < 65536; omega)
  rw [mem_toUtf8_iff ascii, mem_codePoints_iff small wellFormed, unit]

end Syrotp
