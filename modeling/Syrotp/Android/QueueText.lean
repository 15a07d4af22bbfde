import Syrotp.Android.Queue
import Syrotp.Misc.Codec
import Syrotp.Misc.Decimal

/-!
# The text of the queue file

The array of objects that `InboundQueue.kt` keeps, as JSON: the fields in the order in which
`enqueue` puts them. A character of a string that is not printable ASCII, a quote, a slash or a
backslash is written as an escape.
-/

namespace Syrotp.Android

open Text (digits magnitude)

abbrev Bytes := List UInt8

def ascii (s : String) : Bytes := s.toList.map fun c => c.toNat.toUInt8

/-! ## Numbers -/

def decimal : Int → Bytes
  | .ofNat n => (digits n).map UInt16.toUInt8
  | .negSucc n => 45 :: (digits (n + 1)).map UInt16.toUInt8

def readDigits (bytes : Bytes) : Nat := magnitude (bytes.map UInt8.toUInt16)

def readDecimal : Bytes → Int
  | 45 :: bytes => -readDigits bytes
  | bytes => readDigits bytes

theorem digit_byte {n : Nat} {b : UInt8} (h : b ∈ (digits n).map UInt16.toUInt8) :
    48 ≤ b.toNat ∧ b.toNat ≤ 57 := by
  obtain ⟨c, hc, rfl⟩ := List.mem_map.mp h
  have range := Text.isDigit_of_mem_digits hc
  simp only [Text.isDigit, Bool.and_eq_true, decide_eq_true_eq, UInt16.le_iff_toNat_le] at range
  rw [UInt16.toNat_toUInt8]
  have low : (48 : UInt16).toNat = 48 := rfl
  have high : (57 : UInt16).toNat = 57 := rfl
  omega

theorem readDigits_digits (n : Nat) : readDigits ((digits n).map UInt16.toUInt8) = n := by
  have same : ((digits n).map UInt16.toUInt8).map UInt8.toUInt16 = digits n := by
    rw [List.map_map]
    refine (List.map_congr_left fun c hc => ?_).trans (List.map_id _)
    have range := Text.isDigit_of_mem_digits hc
    simp only [Text.isDigit, Bool.and_eq_true, decide_eq_true_eq, UInt16.le_iff_toNat_le] at range
    have high : (57 : UInt16).toNat = 57 := rfl
    apply UInt16.toNat_inj.mp
    rw [Function.comp_apply, UInt8.toNat_toUInt16, UInt16.toNat_toUInt8]
    exact Nat.mod_eq_of_lt (by omega)
  rw [readDigits, same, Text.magnitude_digits]

theorem readDecimal_decimal (n : Int) : readDecimal (decimal n) = n := by
  cases n with
  | ofNat n =>
    have unsigned : ∀ bytes, decimal (.ofNat n) ≠ 45 :: bytes := by
      intro bytes same
      have first : 45 ∈ (digits n).map UInt16.toUInt8 := by
        rw [show (digits n).map UInt16.toUInt8 = 45 :: bytes from same]
        exact List.mem_cons_self
      exact absurd (digit_byte first).1 (by decide)
    unfold readDecimal
    split
    · next bytes same => exact absurd same (unsigned bytes)
    · exact congrArg Int.ofNat (readDigits_digits n)
  | negSucc n =>
    have value : readDecimal (decimal (.negSucc n)) = -((n + 1 : Nat) : Int) :=
      congrArg (fun m : Nat => -(m : Int)) (readDigits_digits (n + 1))
    rw [value]
    rfl

/-- The symbols that end a number do not occur in one. -/
theorem not_mem_decimal {n : Int} {b : UInt8} (other : b ≠ 45)
    (h : b.toNat < 48 ∨ 57 < b.toNat) : b ∉ decimal n := by
  have apart : ∀ n, b ∉ (digits n).map UInt16.toUInt8 := by
    intro n mem
    have range := digit_byte mem
    omega
  cases n with
  | ofNat n => exact apart n
  | negSucc n =>
    rw [decimal, List.mem_cons, not_or]
    exact ⟨other, apart (n + 1)⟩

/-! ## Strings -/

def hexByte (n : Nat) : UInt8 := (if n < 10 then 48 + n else 87 + n).toUInt8

def hexValue (b : UInt8) : Nat := if b.toNat < 58 then b.toNat - 48 else b.toNat - 87

def isPlain (c : UInt16) : Bool := 32 ≤ c && c < 127 && c != 34 && c != 47 && c != 92

def escapeUnit (c : UInt16) : Bytes :=
  if isPlain c then [c.toUInt8]
  else [92, 117, hexByte (c.toNat / 4096), hexByte (c.toNat / 256 % 16),
    hexByte (c.toNat / 16 % 16), hexByte (c.toNat % 16)]

def escape (s : Text) : Bytes := s.flatMap escapeUnit

def unescape : Bytes → Text
  | 92 :: 117 :: a :: b :: c :: d :: rest =>
    (((hexValue a * 16 + hexValue b) * 16 + hexValue c) * 16 + hexValue d).toUInt16 :: unescape rest
  | b :: rest => b.toUInt16 :: unescape rest
  | [] => []

theorem hexValue_hexByte : ∀ n < 16, hexValue (hexByte n) = n := by decide

theorem hexByte_ne_quote : ∀ n < 16, hexByte n ≠ 34 := by decide

theorem plain_range {c : UInt16} (h : isPlain c = true) :
    c.toUInt8.toNat = c.toNat ∧ c.toNat < 127 ∧ c.toNat ≠ 34 ∧ c.toNat ≠ 92 := by
  simp only [isPlain, Bool.and_eq_true, decide_eq_true_eq, bne_iff_ne, UInt16.lt_iff_toNat_lt] at h
  obtain ⟨⟨⟨⟨-, high⟩, quote⟩, -⟩, backslash⟩ := h
  have top : (127 : UInt16).toNat = 127 := rfl
  have narrow : c.toUInt8.toNat = c.toNat := by
    rw [UInt16.toNat_toUInt8]
    exact Nat.mod_eq_of_lt (by omega)
  exact ⟨narrow, by omega, fun same => quote (UInt16.toNat_inj.mp same),
    fun same => backslash (UInt16.toNat_inj.mp same)⟩

theorem unescape_escapeUnit (c : UInt16) (rest : Bytes) :
    unescape (escapeUnit c ++ rest) = c :: unescape rest := by
  unfold escapeUnit
  split
  · next plain =>
    obtain ⟨narrow, -, -, backslash⟩ := plain_range plain
    have apart : c.toUInt8 ≠ 92 := by
      intro same
      rw [same] at narrow
      exact backslash narrow.symm
    have wide : c.toUInt8.toUInt16 = c := by
      apply UInt16.toNat_inj.mp
      rw [UInt8.toNat_toUInt16, narrow]
    rw [List.singleton_append, unescape, wide]
    intro a b c d rest same
    exact absurd same apart
  · have size := c.toNat_lt
    rw [List.cons_append, List.cons_append, List.cons_append, List.cons_append, List.cons_append,
      List.cons_append, List.nil_append, unescape, hexValue_hexByte _ (by omega),
      hexValue_hexByte _ (by omega), hexValue_hexByte _ (by omega), hexValue_hexByte _ (by omega)]
    have value : ((c.toNat / 4096 * 16 + c.toNat / 256 % 16) * 16 + c.toNat / 16 % 16) * 16 +
        c.toNat % 16 = c.toNat := by omega
    rw [value, Nat.toUInt16_eq, UInt16.ofNat_toNat]

theorem unescape_escape (s : Text) : unescape (escape s) = s := by
  induction s with
  | nil => rfl
  | cons c s ih => rw [escape, List.flatMap_cons, unescape_escapeUnit, ← escape, ih]

theorem quote_not_mem_escape (s : Text) : 34 ∉ escape s := by
  rw [escape, List.mem_flatMap]
  rintro ⟨c, _, mem⟩
  unfold escapeUnit at mem
  split at mem
  · next plain =>
    obtain ⟨narrow, -, quote, -⟩ := plain_range plain
    rw [List.mem_singleton] at mem
    rw [← mem] at narrow
    exact quote narrow.symm
  · have size := c.toNat_lt
    simp only [List.mem_cons, List.not_mem_nil, or_false] at mem
    rcases mem with mem | mem | mem | mem | mem | mem
    · exact absurd mem (by decide)
    · exact absurd mem (by decide)
    all_goals exact hexByte_ne_quote _ (by omega) mem.symm

/-! ## Items -/

def stringCodec : Codec UInt8 Text :=
  .after (ascii "\"") (.stopped escape (fun bytes => some (unescape bytes)) 34
    (fun s => congrArg some (unescape_escape s)) quote_not_mem_escape)

/-- A number with the comma after it. -/
def numberCodec : Codec UInt8 Int :=
  .stopped decimal (fun bytes => some (readDecimal bytes)) 44
    (fun n => congrArg some (readDecimal_decimal n))
    fun _ => not_mem_decimal (by decide) (by decide)

/-- The slot, or `null`, with the comma after it. -/
def slotCodec : Codec UInt8 (Option Int) :=
  .stopped (fun slot => slot.elim (ascii "null") decimal)
    (fun bytes => some (if bytes = ascii "null" then none else some (readDecimal bytes))) 44
    (fun slot => by
      cases slot with
      | none => rfl
      | some n =>
        have number : decimal n ≠ ascii "null" := by
          intro same
          have letter : 110 ∈ decimal n := by
            rw [same]
            decide
          exact not_mem_decimal (by decide) (by decide) letter
        exact congrArg some ((if_neg number).trans (congrArg some (readDecimal_decimal n))))
    fun slot => by
      cases slot with
      | none => decide
      | some n => exact not_mem_decimal (by decide) (by decide)

/-- The attempts with the brace after them. -/
def attemptsCodec : Codec UInt8 Nat :=
  .stopped (fun n => decimal n) (fun bytes => some (readDecimal bytes).toNat) 125
    (fun n => congrArg some (congrArg Int.toNat (readDecimal_decimal n)))
    fun _ => not_mem_decimal (by decide) (by decide)

def itemCodec : Codec UInt8 Item :=
  .iso
    (.pair (.after (ascii "\x7b\"id\":") stringCodec)
      (.pair (.after (ascii ",\"from\":") stringCodec)
        (.pair (.after (ascii ",\"to\":") stringCodec)
          (.pair (.after (ascii ",\"body\":") stringCodec)
            (.pair (.after (ascii ",\"received_at_ms\":") numberCodec)
              (.pair (.after (ascii "\"idem\":") stringCodec)
                (.pair (.after (ascii ",\"sim_slot\":") slotCodec)
                  (.after (ascii "\"attempts\":") attemptsCodec))))))))
    (fun (id, sender, recipient, body, receivedAtMillis, idempotencyKey, simSlot, attempts) =>
      { id, sender, recipient, body, receivedAtMillis, idempotencyKey, simSlot, attempts })
    (fun o => (o.id, o.sender, o.recipient, o.body, o.receivedAtMillis, o.idempotencyKey,
      o.simSlot, o.attempts))
    fun _ => rfl

/-- The whole array. -/
def queueCodec : Codec UInt8 (List Item) :=
  .list itemCodec 91 44 93 (by decide) fun o rest => by
    have brace : (itemCodec.encode o ++ rest).head? = some 123 := rfl
    rw [brace]
    decide

end Syrotp.Android
