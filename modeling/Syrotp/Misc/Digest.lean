import Syrotp.Misc.JsText

/-!
# Digests and their hexadecimal form

SHA-256 and HMAC-SHA-256 work on bytes and give 32 of them; what is sent and compared is the
digest in lower-case hexadecimal, which can be read back.
-/

namespace Syrotp

/-- A digit below 16. -/
def hexDigit (n : Nat) : UInt16 := if n < 10 then (48 + n).toUInt16 else (87 + n).toUInt16

/-- Two digits for each byte. -/
def hex (bytes : List UInt8) : Text :=
  bytes.flatMap fun b => [hexDigit (b.toNat / 16), hexDigit (b.toNat % 16)]

/-- UTF-8, SHA-256 and HMAC-SHA-256 as the library of each language has them. -/
structure Primitives where
  utf8 : Text → List UInt8
  sha256 : List UInt8 → List UInt8
  hmacSha256 : List UInt8 → List UInt8 → List UInt8
  utf8_ascii : ∀ s, (∀ c ∈ s, c < 128) → utf8 s = s.map UInt16.toUInt8
  sha256_length : ∀ data, (sha256 data).length = 32
  hmacSha256_length : ∀ key message, (hmacSha256 key message).length = 32

/-- What it means for the digests to be ideal, said of one signed message: nothing else has the
same ones. -/
structure Primitives.Ideal (P : Primitives) (key message data : List UInt8) : Prop where
  hmac : ∀ k m, P.hmacSha256 k m = P.hmacSha256 key message → k = key ∧ m = message
  sha : ∀ d, P.sha256 d = P.sha256 data → d = data

/-! ## Hexadecimal -/

theorem isHexDigit_hexDigit : ∀ n : Fin 16, Text.isHexDigit (hexDigit n) = true := by decide

theorem hexDigit_inj : ∀ m n : Fin 16, hexDigit m = hexDigit n → m = n := by decide

theorem hex_cons (b : UInt8) (bytes : List UInt8) :
    hex (b :: bytes) = hexDigit (b.toNat / 16) :: hexDigit (b.toNat % 16) :: hex bytes := rfl

theorem hex_length (bytes : List UInt8) : (hex bytes).length = 2 * bytes.length := by
  induction bytes with
  | nil => rfl
  | cons b bytes ih =>
    rw [hex_cons, List.length_cons, List.length_cons, List.length_cons, ih]
    omega

/-- The two digits of a byte. -/
theorem high_lt (b : UInt8) : b.toNat / 16 < 16 := by
  have := b.toNat_lt
  omega

theorem low_lt (b : UInt8) : b.toNat % 16 < 16 := Nat.mod_lt _ (by decide)

theorem mem_hex {bytes : List UInt8} {c : UInt16} (h : c ∈ hex bytes) :
    ∃ n : Fin 16, c = hexDigit n := by
  obtain ⟨b, _, hc⟩ := List.mem_flatMap.mp h
  rcases List.mem_pair.mp hc with rfl | rfl
  · exact ⟨⟨_, high_lt b⟩, rfl⟩
  · exact ⟨⟨_, low_lt b⟩, rfl⟩

theorem isHexDigit_of_mem_hex {bytes : List UInt8} {c : UInt16} (h : c ∈ hex bytes) :
    Text.isHexDigit c = true := by
  obtain ⟨n, rfl⟩ := mem_hex h
  exact isHexDigit_hexDigit n

theorem hex_injective : hex.Injective := by
  intro bytes
  induction bytes with
  | nil =>
    intro bytes' same
    cases bytes' with
    | nil => rfl
    | cons b' bytes' => exact nomatch same
  | cons b bytes ih =>
    intro bytes' same
    cases bytes' with
    | nil => exact nomatch same
    | cons b' bytes' =>
      rw [hex_cons, hex_cons] at same
      obtain ⟨high, rest⟩ := List.cons.inj same
      obtain ⟨low, rest⟩ := List.cons.inj rest
      have high := Fin.val_eq_of_eq (hexDigit_inj ⟨_, high_lt b⟩ ⟨_, high_lt b'⟩ high)
      have low := Fin.val_eq_of_eq (hexDigit_inj ⟨_, low_lt b⟩ ⟨_, low_lt b'⟩ low)
      have byte : b = b' := by
        apply UInt8.toNat_inj.mp
        simp only at high low
        omega
      rw [byte, ih rest]

/-! ## ASCII text -/

/-- Text of ASCII characters is known from its bytes. -/
theorem Primitives.utf8_inj (P : Primitives) {s t : Text} (hs : ∀ c ∈ s, c < 128)
    (ht : ∀ c ∈ t, c < 128) (same : P.utf8 s = P.utf8 t) : s = t := by
  rw [P.utf8_ascii s hs, P.utf8_ascii t ht] at same
  have byte : ∀ c d : UInt16, c < 128 → d < 128 → c.toUInt8 = d.toUInt8 → c = d := by
    intro c d hc hd same
    have same := congrArg UInt8.toNat same
    rw [UInt16.toNat_toUInt8, UInt16.toNat_toUInt8] at same
    rw [UInt16.lt_iff_toNat_lt] at hc hd
    apply UInt16.toNat_inj.mp
    simp only [UInt16.reduceToNat] at hc hd
    omega
  induction s generalizing t with
  | nil =>
    cases t with
    | nil => rfl
    | cons d t => exact nomatch same
  | cons c s ih =>
    cases t with
    | nil => exact nomatch same
    | cons d t =>
      obtain ⟨head, tail⟩ := List.cons.inj same
      rw [byte c d (hs c List.mem_cons_self) (ht d List.mem_cons_self) head,
        ih (fun e he => hs e (List.mem_cons_of_mem _ he))
          (fun e he => ht e (List.mem_cons_of_mem _ he)) tail]

end Syrotp
