import Syrotp.Server.Verifications
import Syrotp.Ui.SmsLink
import Mathlib.Data.List.TakeWhile

/-!
# Six links, one message

Every front end's link is read back as the number and the message that it was built from. The links
themselves differ only where the message has a mark that one platform escapes and another leaves.
-/

namespace Syrotp

namespace SmsLink

/-! ## Encoders -/

theorem isAlnum_ascii {c : UInt16} (h : Text.isAlnum c = true) : c < 128 ∧ c ≠ 37 := by
  simp only [Text.isAlnum, Text.isUpperAlnum, Bool.or_eq_true, Bool.and_eq_true,
    decide_eq_true_eq, UInt16.le_iff_toNat_le] at h
  constructor
  · rw [UInt16.lt_iff_toNat_lt]
    simp at *
    omega
  · intro same
    subst same
    simp at h

theorem safe_alnumOr {marks : Text} (listed : (marks.all fun c => c < 128 && c != 37) = true) :
    Percent.Safe (alnumOr marks) where
  ascii c h := by
    rcases Bool.or_eq_true_iff.mp h with plain | mark
    · exact (isAlnum_ascii plain).1
    · have := List.all_eq_true.mp listed c (List.contains_iff_mem.mp mark)
      simp_all
  percent := by
    rw [← Bool.not_eq_true]
    intro h
    rcases Bool.or_eq_true_iff.mp h with plain | mark
    · exact (isAlnum_ascii plain).2 rfl
    · have := List.all_eq_true.mp listed 37 (List.contains_iff_mem.mp mark)
      simp at this

theorem safe_uri : Percent.Safe (alnumOr uriMarks) := safe_alnumOr (by decide)

theorem safe_swift : Percent.Safe (alnumOr swiftMarks) := safe_alnumOr (by decide)

theorem safe_java : Percent.Safe (alnumOr javaMarks) := safe_alnumOr (by decide)

/-- The patch of `URLEncoder` makes it an encoder like the others: a plus sign of its own was
escaped. -/
theorem replacePlus_urlEncode (s : Text) :
    replacePlus (urlEncode s) = Percent.encode (alnumOr javaMarks) (toUtf8 s) := by
  have byte : ∀ b : UInt8, replacePlus (if b = 32 then [43] else
      Percent.encodeByte (alnumOr javaMarks) b) = Percent.encodeByte (alnumOr javaMarks) b := by
    intro b
    by_cases space : b = 32
    · subst space
      decide
    · have plain : ∀ c ∈ Percent.encodeByte (alnumOr javaMarks) b, c ≠ 43 := by
        intro c hc same
        subst same
        have encoded : (43 : UInt16) ∈ Percent.encode (alnumOr javaMarks) [b] := by
          simpa [Percent.encode] using hc
        rcases Percent.mem_encode encoded with safe | percent | ⟨n, digit⟩
        · exact absurd safe (by decide)
        · exact absurd percent (by decide)
        · revert n
          decide
      rw [if_neg space]
      unfold replacePlus
      rw [List.flatMap_congr fun c hc => if_neg (plain c hc)]
      simp
  unfold urlEncode Percent.encode
  induction toUtf8 s with
  | nil => rfl
  | cons b bytes ih =>
    have split : ∀ s t : Text, replacePlus (s ++ t) = replacePlus s ++ replacePlus t := fun s t =>
      List.flatMap_append
    rw [List.flatMap_cons, List.flatMap_cons, split, byte b, ih]

/-- What an encoder of the message leaves. -/
def FrontEnd.marks : FrontEnd → Text
  | .hosted | .webComponent | .react | .flutter => uriMarks
  | .swiftUi => swiftMarks
  | .androidUi => javaMarks

theorem encodeSmsBody_eq (f : FrontEnd) (body : Text) :
    f.encodeSmsBody body = Percent.encode (alnumOr f.marks) (toUtf8 body) := by
  cases f with
  | androidUi => exact replacePlus_urlEncode body
  | _ => rfl

theorem safe_marks (f : FrontEnd) : Percent.Safe (alnumOr f.marks) := by
  cases f with
  | swiftUi => exact safe_swift
  | androidUi => exact safe_java
  | _ => exact safe_uri

/-! ## The number -/

/-- The characters of a number in E.164 form. -/
def isNumberChar (c : UInt16) : Bool := Text.isDigit c || c == 43

theorem isNumberChar_ascii {c : UInt16} (h : isNumberChar c = true) :
    c < 128 ∧ c ≠ 37 ∧ c ≠ 63 ∧ isSurrogate c = false := by
  simp only [isNumberChar, Text.isDigit, Bool.or_eq_true, Bool.and_eq_true, decide_eq_true_eq,
    UInt16.le_iff_toNat_le, beq_iff_eq] at h
  rcases h with ⟨low, high⟩ | rfl
  · have range : c.toNat ≤ 57 := high
    refine ⟨?_, ?_, ?_, ?_⟩
    · rw [UInt16.lt_iff_toNat_lt]
      change c.toNat < 128
      omega
    · intro same
      subst same
      exact absurd low (by decide)
    · intro same
      subst same
      exact absurd high (by decide)
    · simp only [isSurrogate, isHighSurrogate, isLowSurrogate, Bool.or_eq_false_iff,
        Bool.and_eq_false_iff, decide_eq_false_iff_not, UInt16.le_iff_toNat_le,
        UInt16.reduceToNat]
      omega
  · decide

theorem safe_number : Percent.Safe isNumberChar where
  ascii c h := (isNumberChar_ascii h).1
  percent := by decide

/-- Safe text is its own encoding. -/
theorem encode_of_safe {safe : UInt16 → Bool} (s : Text)
    (all : ∀ c ∈ s, safe c = true ∧ c < 128 ∧ isSurrogate c = false) :
    Percent.encode safe (toUtf8 s) = s := by
  induction s with
  | nil => rfl
  | cons c s ih =>
    obtain ⟨plain, ascii, single⟩ := all c List.mem_cons_self
    have small : c.toNat < 128 := UInt16.lt_iff_toNat_lt.mp ascii
    have bytes : toUtf8 (c :: s) = c.toNat.toUInt8 :: toUtf8 s := by
      unfold toUtf8
      rw [codePoints_single single, List.flatMap_cons, utf8Sequence, if_pos small]
      rfl
    have unit : (c.toNat.toUInt8).toUInt16 = c := by
      apply UInt16.toNat_inj.mp
      rw [UInt8.toNat_toUInt16]
      exact UInt8.toNat_ofNat_of_lt' (by change c.toNat < 256; omega)
    rw [bytes, Percent.encode_cons, ih fun d hd => all d (List.mem_cons_of_mem c hd)]
    unfold Percent.encodeByte
    rw [unit, if_pos plain]
    rfl

/-- However the number stands in the link, it is encoded, and without a question mark. -/
theorem recipient_encoded (f : FrontEnd) {sendTo : Text}
    (number : ∀ c ∈ sendTo, isNumberChar c = true) : ∃ safe, Percent.Safe safe ∧ safe 63 = false ∧
      f.recipient sendTo = Percent.encode safe (toUtf8 sendTo) := by
  have raw : sendTo = Percent.encode isNumberChar (toUtf8 sendTo) := by
    refine (encode_of_safe sendTo ?_).symm
    intro c hc
    obtain ⟨ascii, _, _, single⟩ := isNumberChar_ascii (number c hc)
    exact ⟨number c hc, ascii, single⟩
  cases f with
  | hosted => exact ⟨_, safe_uri, by decide, rfl⟩
  | androidUi => exact ⟨_, safe_uri, by decide, rfl⟩
  | _ => exact ⟨_, safe_number, by decide, raw⟩

/-! ## Reading back -/

theorem not_mem_encode {safe : UInt16 → Bool} {bytes : List UInt8} {c : UInt16}
    (unsafe_c : safe c = false) (other : c ≠ 37) (noDigit : ∀ n : Fin 16, c ≠ Percent.upperDigit n) :
    c ∉ Percent.encode safe bytes := by
  intro h
  rcases Percent.mem_encode h with plain | percent | ⟨n, digit⟩
  · rw [unsafe_c] at plain
    cases plain
  · exact other percent
  · exact noDigit n digit

/-- The link of every front end is read back as the number and the message. -/
theorem sms_links_read_back (f : FrontEnd) {sendTo body : Text}
    (number : ∀ c ∈ sendTo, isNumberChar c = true) (wellFormed : isWellFormed body = true) :
    readSmsLink (f.smsLink sendTo body) = some (sendTo, body) := by
  obtain ⟨safe, ok, noMark, recipient⟩ := recipient_encoded f number
  have path : (63 : UInt16) ∉ f.recipient sendTo := by
    rw [recipient]
    exact not_mem_encode noMark (by decide) (by decide)
  have noSeparator : ∀ c ∈ f.encodeSmsBody body, c ≠ 38 ∧ c ≠ 35 := by
    rw [encodeSmsBody_eq]
    intro c hc
    constructor
    · intro same
      subst same
      exact not_mem_encode (by cases f <;> decide) (by decide) (by decide) hc
    · intro same
      subst same
      exact not_mem_encode (by cases f <;> decide) (by decide) (by decide) hc
  have link : f.smsLink sendTo body =
      text "sms:" ++ (f.recipient sendTo ++ 63 :: (text "body=" ++ f.encodeSmsBody body)) := by
    unfold FrontEnd.smsLink
    rw [List.append_assoc, List.append_assoc]
    rfl
  have scheme : Text.startsWith (f.smsLink sendTo body) (text "sms:") = true := by
    rw [link]
    exact List.isPrefixOf_iff_prefix.mpr (List.prefix_append _ _)
  have rest : (f.smsLink sendTo body).drop 4 =
      f.recipient sendTo ++ 63 :: (text "body=" ++ f.encodeSmsBody body) := by
    rw [link]
    rfl
  have before : ∀ c ∈ f.recipient sendTo, decide (c ≠ 63) = true := by
    intro c hc
    refine decide_eq_true ?_
    intro same
    exact path (same ▸ hc)
  have whole : (f.encodeSmsBody body).takeWhile (fun c => c ≠ 38 ∧ c ≠ 35) =
      f.encodeSmsBody body := by
    apply List.takeWhile_eq_self_iff.mpr
    intro c hc
    exact decide_eq_true (noSeparator c hc)
  have decodedNumber : Percent.decode (f.recipient sendTo) = some (toUtf8 sendTo) := by
    rw [recipient]
    exact Percent.decode_encode ok
  have decodedBody : Percent.decode (f.encodeSmsBody body) = some (toUtf8 body) := by
    rw [encodeSmsBody_eq]
    exact Percent.decode_encode (safe_marks f)
  have ascii : isWellFormed sendTo = true :=
    isWellFormed_of_single sendTo fun c hc => (isNumberChar_ascii (number c hc)).2.2.2
  have taken : ((f.smsLink sendTo body).drop 4).takeWhile (· ≠ 63) = f.recipient sendTo := by
    rw [rest, List.takeWhile_append_of_pos before]
    simp
  have query : ((f.smsLink sendTo body).drop 4).dropWhile (· ≠ 63) =
      text "?body=" ++ f.encodeSmsBody body := by
    rw [rest, List.dropWhile_append_of_pos before]
    rfl
  have key : Text.startsWith (text "?body=" ++ f.encodeSmsBody body) (text "?body=") = true :=
    List.isPrefixOf_iff_prefix.mpr (List.prefix_append _ _)
  have value : (text "?body=" ++ f.encodeSmsBody body).drop 6 = f.encodeSmsBody body := rfl
  unfold readSmsLink
  simp only [scheme, taken, query, key, value, whole, decodedNumber, decodedBody, Bool.not_true,
    Bool.false_eq_true, if_false, fromUtf8_toUtf8 ascii, fromUtf8_toUtf8 wellFormed]

theorem sms_links_read_back_case : readSmsLink
    (FrontEnd.androidUi.smsLink (text "+963991234567") (text "VERIFY ~A+B")) =
      some (text "+963991234567", text "VERIFY ~A+B") :=
  sms_links_read_back .androidUi (List.all_eq_true.mp (by decide)) (by decide)

/-! ## Byte for byte -/

/-- The marks that the platforms do not agree on. -/
def disputed : Text := text "!'()*~"

theorem disputed_ascii : ∀ n : Fin 128, (alnumOr uriMarks (.ofNat n) = alnumOr swiftMarks (.ofNat n) ∧
    alnumOr uriMarks (.ofNat n) = alnumOr javaMarks (.ofNat n)) ↔ UInt16.ofNat n ∉ disputed := by
  decide +kernel

theorem disputed_iff {c : UInt16} (ascii : c < 128) :
    (∀ f g : FrontEnd, alnumOr f.marks c = alnumOr g.marks c) ↔ c ∉ disputed := by
  have char := disputed_ascii ⟨c.toNat, UInt16.lt_iff_toNat_lt.mp ascii⟩
  simp only [UInt16.ofNat_toNat] at char
  rw [← char]
  constructor
  · intro h
    exact ⟨h .hosted .swiftUi, h .hosted .androidUi⟩
  · rintro ⟨swift, java⟩ f g
    have uri : ∀ f : FrontEnd, alnumOr f.marks c = alnumOr uriMarks c := by
      intro f
      cases f with
      | swiftUi => exact swift.symm
      | androidUi => exact java.symm
      | _ => rfl
    rw [uri f, uri g]

/-- The front ends write the same text if and only if the message has none of these marks. -/
theorem encodeSmsBody_agree_iff {body : Text} (wellFormed : isWellFormed body = true) :
    (∀ f g : FrontEnd, f.encodeSmsBody body = g.encodeSmsBody body) ↔
      ∀ c ∈ body, c ∉ disputed := by
  have bytes : (∀ f g : FrontEnd, f.encodeSmsBody body = g.encodeSmsBody body) ↔
      ∀ b ∈ toUtf8 body, ∀ f g : FrontEnd,
        alnumOr f.marks b.toUInt16 = alnumOr g.marks b.toUInt16 := by
    simp only [encodeSmsBody_eq, Percent.encode_eq_iff (safe_marks _) (safe_marks _)]
    constructor
    · intro h b hb f g
      exact h f g b hb
    · intro h f g b hb
      exact h b hb f g
  rw [bytes]
  constructor
  · intro h c hc mark
    have byte : (disputed.all fun c =>
        decide (c.toUInt8.toUInt16 = c ∧ c.toUInt8 < 128 ∧ c < 128)) = true := by decide
    obtain ⟨unit, small, ascii⟩ := of_decide_eq_true (List.all_eq_true.mp byte c mark)
    have there : c.toUInt8 ∈ toUtf8 body := by
      rw [mem_toUtf8_ascii small wellFormed, unit]
      exact hc
    have same := h _ there
    rw [unit] at same
    exact (disputed_iff ascii).mp same mark
  · intro h b hb
    by_cases ascii : b < 128
    · have there := (mem_toUtf8_ascii ascii wellFormed).mp hb
      apply (disputed_iff ?_).mpr (h _ there)
      rw [UInt16.lt_iff_toNat_lt, UInt8.toNat_toUInt16]
      exact UInt8.lt_iff_toNat_lt.mp ascii
    · intro f g
      have escaped : ∀ f : FrontEnd, alnumOr f.marks b.toUInt16 = false := by
        intro f
        rw [← Bool.not_eq_true]
        intro plain
        have := (safe_marks f).ascii _ plain
        rw [UInt16.lt_iff_toNat_lt, UInt8.toNat_toUInt16] at this
        exact ascii (UInt8.lt_iff_toNat_lt.mpr this)
      rw [escaped f, escaped g]

/-- The message of every verification is written the same everywhere. -/
theorem encodeSmsBody_agree_on_codes (length : Nat) (random : Nat → Nat) (f g : FrontEnd) :
    f.encodeSmsBody (verifyPrefix ++ text " " ++ generateCode length random) =
      g.encodeSmsBody (verifyPrefix ++ text " " ++ generateCode length random) := by
  have plain : ∀ c ∈ verifyPrefix ++ text " " ++ generateCode length random,
      c ∈ verifyPrefix ++ text " " ++ codeAlphabet := by
    intro c hc
    rcases List.mem_append.mp hc with before | code
    · exact List.mem_append_left _ before
    · exact List.mem_append_right _ (Text.mem_of_mem_draw (by decide) code)
  apply (encodeSmsBody_agree_iff ?_).mpr
  · intro c hc
    have all : ((verifyPrefix ++ text " " ++ codeAlphabet).all fun c => !disputed.contains c) =
        true := by decide
    simpa using List.all_eq_true.mp all c (plain c hc)
  · apply isWellFormed_of_single
    intro c hc
    have all : ((verifyPrefix ++ text " " ++ codeAlphabet).all fun c => !isSurrogate c) = true := by
      decide
    simpa using List.all_eq_true.mp all c (plain c hc)

/-- The bodies of the links agree byte for byte exactly where no mark is disputed, and so for every
message that asks for a code. -/
theorem sms_bodies_agree : (∀ body, isWellFormed body = true →
    ((∀ f g : FrontEnd, f.encodeSmsBody body = g.encodeSmsBody body) ↔
      ∀ c ∈ body, c ∉ disputed)) ∧
    ∀ length random (f g : FrontEnd),
      f.encodeSmsBody (verifyPrefix ++ text " " ++ generateCode length random) =
        g.encodeSmsBody (verifyPrefix ++ text " " ++ generateCode length random) :=
  ⟨fun _ => encodeSmsBody_agree_iff, encodeSmsBody_agree_on_codes⟩

theorem sms_bodies_agree_case :
    FrontEnd.swiftUi.encodeSmsBody (text "1 + 1?") =
      FrontEnd.androidUi.encodeSmsBody (text "1 + 1?") := by
  have plain : ((text "1 + 1?").all fun c => !disputed.contains c) = true := by decide
  apply (sms_bodies_agree.1 (text "1 + 1?") (by decide)).mpr
  intro c hc
  simpa using List.all_eq_true.mp plain c hc

end SmsLink

end Syrotp
