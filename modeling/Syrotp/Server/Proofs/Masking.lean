import Syrotp.Misc.Utf8
import Syrotp.Server.Masks
import Syrotp.Server.Proofs.Parsing
import Mathlib.Data.List.TakeWhile

/-!
# Masked messages

The mask shows the first word of a message. The parsers take a message whose keyword and secret are
one word, and then the mask shows the beginning of the secret.
-/

namespace Syrotp

variable {P : Platform} {s t head tail rest lead : Text} {c : UInt16}

/-! ## Messages that carry a secret -/

/-- What a message may carry. -/
inductive Secret where
  | code
  | nonce
  deriving DecidableEq, Repr

def Secret.keyword : Secret → Text
  | .code => verifyPrefix
  | .nonce => bindPrefix

/-- How the secret is read from a body. -/
def Secret.read (P : Platform) : Secret → Text → Option Text
  | .code => extractCode P
  | .nonce => extractBindNonce P

/-- Upper-casing as the language has it: one code point after the other, a surrogate without its
partner as it is, and ASCII as usual. -/
structure UnicodeUpper (P : Platform) : Prop where
  ascii : AsciiCase P
  split : ∀ s c t, isSurrogate c = false →
    P.toUpperCase (s ++ c :: t) = P.toUpperCase s ++ P.toUpperCase [c] ++ P.toUpperCase t
  lone : ∀ c, isSurrogate c = true → P.toUpperCase [c] = [c]

theorem unicodeUpper_ascii : UnicodeUpper .ascii where
  ascii := asciiCase_ascii
  split s c t _ := by simp [Platform.ascii, Text.asciiUpper]
  lone c h := by
    have other : ¬(97 ≤ c ∧ c ≤ 122) := by
      simp only [isSurrogate, isHighSurrogate, isLowSurrogate, Bool.or_eq_true, Bool.and_eq_true,
        decide_eq_true_eq, UInt16.le_iff_toNat_le] at h ⊢
      simp at *
      omega
    simp [Platform.ascii, Text.asciiUpper, other]

/-- The character is read as one character of a secret. -/
def CodeChar (P : Platform) (c : UInt16) : Prop :=
  ∃ d, P.toUpperCase [c] = [d] ∧ Text.isUpperAlnum d = true

/-- The body is the keyword and then the tail, after any white space. -/
structure Carries (P : Platform) (k : Secret) (lead head : Text) : Prop where
  spaces : ∀ c ∈ lead, Text.isSpace c = true
  keyword : P.toUpperCase head = k.keyword

/-- The bodies differ only in characters of the secret. -/
def SameMessage (P : Platform) (k : Secret) (body body' : Text) : Prop :=
  ∃ lead head tail tail', Carries P k lead head ∧ body = lead ++ head ++ tail ∧
    body' = lead ++ head ++ tail' ∧
    List.Forall₂ (fun c c' => c = c' ∨ CodeChar P c ∧ CodeChar P c') tail tail'

/-- The keyword is in letters of ASCII, and the secret follows it at once. -/
def Glued (P : Platform) (k : Secret) (body : Text) : Prop :=
  ∃ lead head c rest, Carries P k lead head ∧ body = lead ++ head ++ c :: rest ∧
    (∀ h ∈ head, Text.isAlnum h = true) ∧ CodeChar P c

/-! ## Characters -/

theorem isSurrogate_of_alnum (h : Text.isAlnum c = true) : isSurrogate c = false := by
  simp only [Text.isAlnum, Text.isUpperAlnum, Bool.or_eq_true, Bool.and_eq_true,
    decide_eq_true_eq, UInt16.le_iff_toNat_le] at h
  simp only [isSurrogate, isHighSurrogate, isLowSurrogate, Bool.or_eq_false_iff,
    Bool.and_eq_false_iff, decide_eq_false_iff_not, UInt16.le_iff_toNat_le]
  simp at *
  omega

theorem isSurrogate_of_space (h : Text.isSpace c = true) : isSurrogate c = false := by
  simp only [Text.isSpace, Bool.or_eq_true, Bool.and_eq_true, decide_eq_true_eq, beq_iff_eq,
    UInt16.le_iff_toNat_le, ← UInt16.toNat_inj] at h
  simp only [isSurrogate, isHighSurrogate, isLowSurrogate, Bool.or_eq_false_iff,
    Bool.and_eq_false_iff, decide_eq_false_iff_not, UInt16.le_iff_toNat_le]
  simp at *
  omega

theorem keyword_upper (k : Secret) : ∀ c ∈ k.keyword, Text.isUpperAlnum c = true := by
  cases k with
  | code => exact verifyPrefix_letters
  | nonce => exact bindPrefix_letters

/-- A letter or digit of ASCII is read as one. -/
theorem codeChar_of_alnum (unicode : UnicodeUpper P) (h : Text.isAlnum c = true) :
    CodeChar P c := by
  refine ⟨Text.upperChar c, ?_, ?_⟩
  · rw [unicode.ascii [c] (by simp [h])]
    rfl
  · rw [Text.isUpperAlnum_upperChar]
    exact h

theorem CodeChar.not_surrogate (unicode : UnicodeUpper P) (h : CodeChar P c) :
    isSurrogate c = false := by
  by_contra surrogate
  rw [Bool.not_eq_false] at surrogate
  obtain ⟨d, upper, alnum⟩ := h
  rw [unicode.lone c surrogate] at upper
  obtain rfl := List.singleton_inj.mp upper
  rw [isSurrogate_of_alnum (isAlnum_of_upper alnum)] at surrogate
  exact Bool.noConfusion surrogate

theorem CodeChar.not_space (unicode : UnicodeUpper P) (h : CodeChar P c) :
    Text.isSpace c = false := by
  by_contra space
  rw [Bool.not_eq_false] at space
  obtain ⟨d, upper, alnum⟩ := h
  rw [unicode.ascii [c] (by simp [space]), Text.asciiUpper_eq_map] at upper
  have same : Text.isSpace d = true := by
    rw [← List.singleton_inj.mp upper, Text.isSpace_upperChar]
    exact space
  rw [Text.alnum_not_space (isAlnum_of_upper alnum)] at same
  exact Bool.noConfusion same

/-! ## Keywords -/

section

variable {k : Secret}

theorem Carries.nonempty (unicode : UnicodeUpper P) (h : Carries P k lead head) : head ≠ [] := by
  rintro rfl
  have empty : P.toUpperCase [] = [] := unicode.ascii [] nofun
  have keyword := h.keyword
  rw [empty] at keyword
  cases k <;> exact absurd keyword (by decide)

/-- There is no white space in a keyword. -/
theorem Carries.solid (unicode : UnicodeUpper P) (h : Carries P k lead head) :
    ∀ c ∈ head, Text.isSpace c = false := by
  intro c hc
  by_contra space
  rw [Bool.not_eq_false] at space
  obtain ⟨s, t, rfl⟩ := List.append_of_mem hc
  have upper := h.keyword
  rw [unicode.split s c t (isSurrogate_of_space space), unicode.ascii [c] (by simp [space])] at upper
  have mem : Text.upperChar c ∈ k.keyword := by
    rw [← upper]
    simp [Text.asciiUpper_eq_map]
  have solid := Text.alnum_not_space (isAlnum_of_upper (keyword_upper k _ mem))
  rw [Text.isSpace_upperChar, space] at solid
  exact Bool.noConfusion solid

theorem Carries.trim (unicode : UnicodeUpper P) (h : Carries P k lead head) :
    Text.trim (lead ++ head ++ tail) = head ++ Text.trimEnd tail :=
  Text.trim_append h.spaces (h.solid unicode) (h.nonempty unicode)

theorem trimEnd_cons (solid : Text.isSpace c = false) :
    Text.trimEnd (c :: rest) = c :: Text.trimEnd rest := by
  have word : Text.trim ([] ++ [c] ++ rest) = [c] ++ Text.trimEnd rest :=
    Text.trim_append nofun (by simp [solid]) (by simp)
  rw [List.nil_append, List.singleton_append, Text.trim_eq_trimEnd,
    List.dropWhile_cons_of_neg (by simp [solid])] at word
  exact word

end

/-! ## The first word -/

theorem takeWhile_append_stop {p : UInt16 → Bool} (stop : (∃ c ∈ s, p c = false) ∨
    ∀ c ∈ t.head?, p c = false) : (s ++ t).takeWhile p = s.takeWhile p := by
  induction s with
  | nil =>
    rcases stop with ⟨c, hc, _⟩ | first
    · exact absurd hc List.not_mem_nil
    · cases t with
      | nil => rfl
      | cons c t => rw [List.nil_append, List.takeWhile_cons_of_neg (by simp [first c rfl])]; rfl
  | cons c s ih =>
    by_cases h : p c = true
    · rw [List.cons_append, List.takeWhile_cons_of_pos h, List.takeWhile_cons_of_pos h]
      apply congrArg
      apply ih
      refine stop.imp_left ?_
      rintro ⟨d, hd, other⟩
      rcases List.mem_cons.mp hd with rfl | inside
      · rw [h] at other
        exact Bool.noConfusion other
      · exact ⟨d, inside, other⟩
    · rw [List.cons_append, List.takeWhile_cons_of_neg h, List.takeWhile_cons_of_neg h]

theorem isAlnum_of_letter (h : Text.isLetter c = true) : Text.isAlnum c = true := by
  simp only [Text.isLetter, Text.isAlnum, Text.isUpperAlnum, Bool.or_eq_true] at h ⊢
  exact h.imp_left .inl

/-- What follows a word does not change its verb, if the word has an end. -/
theorem verb_append (nonempty : s ≠ []) (stop : (∃ c ∈ s, Text.isAlnum c = false) ∨
    ∀ c ∈ t.head?, Text.isAlnum c = false) : verb (s ++ t) = verb s := by
  cases s with
  | nil => exact absurd rfl nonempty
  | cons c s =>
    rw [List.cons_append, verb, verb]
    by_cases letter : Text.isLetter c = true
    · rw [if_pos letter, if_pos letter, takeWhile_append_stop]
      refine stop.imp_left ?_
      rintro ⟨d, hd, other⟩
      rcases List.mem_cons.mp hd with rfl | inside
      · rw [isAlnum_of_letter letter] at other
        exact Bool.noConfusion other
      · exact ⟨d, inside, other⟩
    · rw [if_neg letter, if_neg letter]

/-- A short word goes on with the next character if that is a letter or a digit. -/
theorem verb_word {c₀ : UInt16} (letter : Text.isLetter c₀ = true)
    (alnum : ∀ c ∈ s, Text.isAlnum c = true) (short : s.length < 15) :
    ∃ more, (∀ d ∈ more, Text.isAlnum d = true) ∧
      verb (c₀ :: s ++ c :: t) = c₀ :: s ++ if Text.isAlnum c then c :: more else [] := by
  have taken : (s ++ c :: t).takeWhile Text.isAlnum =
      s ++ if Text.isAlnum c then c :: t.takeWhile Text.isAlnum else [] := by
    rw [List.takeWhile_append_of_pos alnum, List.takeWhile_cons]
  refine ⟨(t.takeWhile Text.isAlnum).take (14 - s.length), ?_, ?_⟩
  · intro d hd
    exact List.mem_takeWhile_imp (List.mem_of_mem_take hd)
  rw [List.cons_append, verb, if_pos letter, taken, List.cons_append]
  apply congrArg
  by_cases next : Text.isAlnum c = true
  · have room : 15 - s.length = (14 - s.length) + 1 := by omega
    rw [if_pos next, if_pos next, List.take_append, List.take_of_length_le (by omega), room]
    rfl
  · rw [if_neg next, if_neg next, List.append_nil, List.take_of_length_le (by omega)]

/-! ## The mask -/

section

variable {k : Secret}

theorem maskInboundBody_eq {body : Text} (nonempty : body ≠ []) : maskInboundBody body =
    Text.trim (verb (Text.trim body) ++ text " *** (" ++ Text.ofInt body.length ++
      text " bytes)") :=
  if_neg fun empty => nonempty (List.length_eq_zero_iff.mp empty)

/-- A mask that starts with a word needs no trimming. -/
theorem trim_mask {n : ℕ} (word : ∀ c ∈ s, Text.isAlnum c = true) (nonempty : s ≠ []) :
    Text.trim (s ++ text " *** (" ++ Text.ofInt n ++ text " bytes)") =
      s ++ (text " *** (" ++ Text.ofInt n ++ text " bytes)") := by
  have last : text " bytes)" = text " bytes" ++ [41] := by decide
  have kept : ∀ t : Text, Text.trimEnd (t ++ [41]) = t ++ [41] := by
    intro t
    rw [Text.trimEnd, List.reverse_append, List.reverse_singleton, List.singleton_append,
      List.dropWhile_cons_of_neg (by decide), List.reverse_cons, List.reverse_reverse]
  have trimmed : ∀ t, Text.trim ([] ++ s ++ t) = s ++ Text.trimEnd t := fun t =>
    Text.trim_append (List.forall_mem_nil _) (fun c hc => Text.alnum_not_space (word c hc)) nonempty
  simp only [List.nil_append] at trimmed
  rw [List.append_assoc, List.append_assoc, ← List.append_assoc (text " *** ("), trimmed, last,
    ← List.append_assoc (text " *** (" ++ _), kept]

/-- A keyword in letters and digits of ASCII is a short word. -/
theorem Carries.word (unicode : UnicodeUpper P) (h : Carries P k lead head)
    (alnum : ∀ c ∈ head, Text.isAlnum c = true) : ∃ c₀ s, head = c₀ :: s ∧
      Text.isLetter c₀ = true ∧ s.length < 15 := by
  have spelled : Text.asciiUpper head = k.keyword := by
    rw [← unicode.ascii head fun c hc => .inl (alnum c hc)]
    exact h.keyword
  have short : head.length ≤ 6 := by
    have same := congrArg List.length spelled
    rw [Text.asciiUpper_eq_map, List.length_map] at same
    rw [same]
    cases k <;> decide
  cases head with
  | nil => exact absurd rfl (h.nonempty unicode)
  | cons c₀ s =>
    refine ⟨c₀, s, rfl, ?_, ?_⟩
    · by_contra other
      rw [Text.asciiUpper_eq_map, List.map_cons] at spelled
      -- a letter or digit that is no letter is its own upper case, and no keyword starts with it
      have digit : Text.isUpperAlnum c₀ = true := by
        have known := alnum c₀ List.mem_cons_self
        simp only [Text.isAlnum, Text.isLetter, Bool.or_eq_true] at known other
        exact known.resolve_right fun lower => other (.inr lower)
      rw [Text.upperChar_of_upperAlnum digit] at spelled
      have first := congrArg List.head? spelled
      rw [List.head?_cons] at first
      cases k with
      | code =>
        obtain rfl : c₀ = 86 := Option.some.inj (first.trans (by decide))
        exact other (by decide)
      | nonce =>
        obtain rfl : c₀ = 66 := Option.some.inj (first.trans (by decide))
        exact other (by decide)
    · rw [List.length_cons] at short
      omega

/-- What the mask has after the keyword. -/
theorem mask_after_keyword (unicode : UnicodeUpper P) (h : Carries P k lead head)
    (alnum : ∀ c ∈ head, Text.isAlnum c = true) (solid : Text.isSpace c = false) :
    (maskInboundBody (lead ++ head ++ c :: rest))[head.length]? =
      some (if Text.isAlnum c then c else 32) := by
  obtain ⟨c₀, s, rfl, letter, short⟩ := h.word unicode alnum
  have inside : ∀ d ∈ s, Text.isAlnum d = true := fun d hd => alnum d (List.mem_cons_of_mem _ hd)
  obtain ⟨more, after, word⟩ := verb_word (t := Text.trimEnd rest) (c := c) letter inside short
  have nonempty : lead ++ c₀ :: s ++ c :: rest ≠ [] := by simp
  rw [maskInboundBody_eq nonempty, h.trim unicode, trimEnd_cons solid, word]
  by_cases next : Text.isAlnum c = true
  · have all : ∀ d ∈ c₀ :: s ++ c :: more, Text.isAlnum d = true := by
      intro d hd
      rcases List.mem_append.mp hd with keyword | secret
      · exact alnum d keyword
      · rcases List.mem_cons.mp secret with rfl | later
        · exact next
        · exact after d later
    rw [if_pos next, if_pos next, trim_mask all (by simp), List.append_assoc,
      List.getElem?_append_right (Nat.le_refl _), Nat.sub_self]
    rfl
  · rw [if_neg next, if_neg next, List.append_nil, trim_mask alnum (by simp),
      List.getElem?_append_right (Nat.le_refl _), Nat.sub_self]
    rfl

/-! ## Messages read alike -/

theorem Secret.read_eq (unicode : UnicodeUpper P) (k : Secret) : ∃ least most, ∀ body,
    k.read P body = extractTail P k.keyword k.keyword.length least most body := by
  cases k with
  | code =>
    refine ⟨4, 32, fun body => ?_⟩
    rw [Secret.read, extractCode, verifyPrefix_upper unicode.ascii]
    rfl
  | nonce => exact ⟨8, 64, fun body => rfl⟩

theorem removeSpaces_cons {d : UInt16} (alnum : Text.isUpperAlnum d = true) :
    Text.removeSpaces (d :: s) = d :: Text.removeSpaces s :=
  List.filter_cons_of_pos (by simp [Text.alnum_not_space (isAlnum_of_upper alnum)])

theorem trimEnd_prefix : Text.trimEnd s <+: s := by
  rw [Text.trimEnd, ← List.reverse_suffix, List.reverse_reverse]
  exact List.dropWhile_suffix _

/-- Whether a message whose secret follows its keyword at once is read does not depend on the first
character of the secret. -/
theorem read_glued (unicode : UnicodeUpper P) (h : Carries P k lead head) {c' : UInt16}
    (code : CodeChar P c) (code' : CodeChar P c') :
    (k.read P (lead ++ head ++ c :: rest)).isSome =
      (k.read P (lead ++ head ++ c' :: rest)).isSome := by
  obtain ⟨least, most, read⟩ := k.read_eq unicode
  have shape : ∀ {c : UInt16}, CodeChar P c → (k.read P (lead ++ head ++ c :: rest)).isSome =
      (let tail := Text.removeSpaces (P.toUpperCase (Text.trimEnd rest))
      !decide (tail.length + 1 < least ∨ most < tail.length + 1) &&
        tail.all Text.isUpperAlnum) := by
    intro c code
    have surrogate := code.not_surrogate unicode
    have solid := code.not_space unicode
    obtain ⟨d, upper, alnum⟩ := code
    have starts : Text.startsWith (k.keyword ++ d :: P.toUpperCase (Text.trimEnd rest)) k.keyword =
        true := List.isPrefixOf_iff_prefix.mpr (List.prefix_append _ _)
    rw [read, extractTail, h.trim unicode, trimEnd_cons solid, unicode.split head c _ surrogate,
      h.keyword, upper, List.append_assoc, List.singleton_append, starts, List.drop_left,
      removeSpaces_cons alnum]
    simp only [Bool.not_true, Bool.false_eq_true, if_false, List.length_cons, Text.upperAlnum,
      List.isEmpty_cons, Bool.not_false, Bool.true_and, List.all_cons, alnum]
    split
    · next short => rw [decide_eq_true short, Bool.not_true, Bool.false_and, Option.isSome_none]
    · next fits =>
      rw [decide_eq_false fits, Bool.not_false, Bool.true_and]
      split
      · next other => simp_all
      · next same => simp_all
  rw [shape code, shape code']

/-! ## What the mask hides -/

theorem head?_trimEnd {c : UInt16} (h : c ∈ (Text.trimEnd s).head?) : c ∈ s.head? := by
  obtain ⟨more, whole⟩ := trimEnd_prefix (s := s)
  rw [Option.mem_def] at h ⊢
  rw [← whole, List.head?_append, h]
  rfl

/-- Where the verb ends with the keyword, the mask is the same for every tail of one length. -/
theorem mask_eq_of_end (unicode : UnicodeUpper P) (h : Carries P k lead head) {tail' : Text}
    (length : tail.length = tail'.length)
    (stop : (∃ c ∈ head, Text.isAlnum c = false) ∨
      ∀ c, c ∈ tail.head? ∨ c ∈ tail'.head? → Text.isAlnum c = false) :
    maskInboundBody (lead ++ head ++ tail) = maskInboundBody (lead ++ head ++ tail') := by
  have nonempty : ∀ t : Text, lead ++ head ++ t ≠ [] := by
    intro t
    simp [h.nonempty unicode]
  have first : verb (head ++ Text.trimEnd tail) = verb head :=
    verb_append (h.nonempty unicode)
      (stop.imp_right fun next c hc => next c (.inl (head?_trimEnd hc)))
  have second : verb (head ++ Text.trimEnd tail') = verb head :=
    verb_append (h.nonempty unicode)
      (stop.imp_right fun next c hc => next c (.inr (head?_trimEnd hc)))
  have lengths : (lead ++ head ++ tail).length = (lead ++ head ++ tail').length := by
    simp only [List.length_append, length]
  rw [maskInboundBody_eq (nonempty tail), maskInboundBody_eq (nonempty tail'), h.trim unicode,
    h.trim unicode, first, second, lengths]

end

theorem not_glued_script : ¬Glued .ascii .code (text " verify A7K9P2") := by
  rintro ⟨lead, head, c, rest, carries, body, alnum, code⟩
  have length : head.length = 6 := by
    have spelled : Text.asciiUpper head = verifyPrefix := carries.keyword
    have same := congrArg List.length spelled
    rw [Text.asciiUpper_eq_map, List.length_map] at same
    exact same
  have shown : (maskInboundBody (lead ++ head ++ c :: rest))[head.length]? =
      some (if Text.isAlnum c then c else 32) :=
    mask_after_keyword unicodeUpper_ascii carries alnum (code.not_space unicodeUpper_ascii)
  have blank : (maskInboundBody (text " verify A7K9P2"))[6]? = some 32 := by decide +kernel
  rw [← body, length, blank] at shown
  obtain ⟨d, upper, upperAlnum⟩ := code
  have letter : Text.isAlnum c = true := by
    rw [← Text.isUpperAlnum_upperChar]
    obtain rfl := List.singleton_inj.mp upper
    exact upperAlnum
  rw [if_pos letter] at shown
  obtain rfl := Option.some.inj shown
  exact absurd letter (by decide)

end Syrotp
