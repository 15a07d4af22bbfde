import Syrotp.Misc.Spelling
import Syrotp.Server.Matching

/-!
# What a message is read as

`generateCode` and `generateNonce` draw from alphabets of capital letters and digits, so a message
that spells its keyword and a drawn tail is read back as that tail, however it is typed. And no
text is read both ways: it starts with one keyword or the other.
-/

namespace Syrotp

variable {P : Platform}

/-- Upper-casing maps the letters of ASCII to their capitals and leaves digits and white space
alone, as the Unicode case mapping does. -/
def AsciiCase (P : Platform) : Prop :=
  ∀ s : Text, (∀ c ∈ s, Text.isAlnum c = true ∨ Text.isSpace c = true) →
    P.toUpperCase s = Text.asciiUpper s

theorem asciiCase_ascii : AsciiCase .ascii := fun _ _ => rfl

/-! ## Reading -/

/-- A message of the keyword and a tail of the right shape is read as that tail. -/
theorem extractTail_spelled (ascii : AsciiCase P) {keyword tail body : Text} {least most : Nat}
    (h : Text.Spells keyword tail body)
    (letters : ∀ c ∈ keyword, Text.isUpperAlnum c = true) (nonempty : keyword ≠ [])
    (characters : ∀ c ∈ tail, Text.isUpperAlnum c = true) (positive : 0 < least)
    (range : least ≤ tail.length ∧ tail.length ≤ most) :
    extractTail P keyword keyword.length least most body = some tail := by
  obtain ⟨⟨rest, upper, stripped⟩, plain⟩ := h.read letters nonempty characters
  have starts : Text.startsWith (keyword ++ rest) keyword = true :=
    List.isPrefixOf_iff_prefix.mpr (List.prefix_append keyword rest)
  have present : tail ≠ [] := List.ne_nil_of_length_pos (Nat.lt_of_lt_of_le positive range.1)
  have shape : Text.upperAlnum tail = true := by
    simp only [Text.upperAlnum, Bool.and_eq_true, Bool.not_eq_true', List.all_eq_true]
    exact ⟨List.isEmpty_eq_false_iff.mpr present, characters⟩
  have fits : ¬(tail.length < least ∨ most < tail.length) := by omega
  simp only [extractTail, ascii _ plain, upper, starts, List.drop_left, stripped, shape, fits,
    Bool.not_true, Bool.false_eq_true, if_false]

/-- Only a text that starts with the keyword is read. -/
theorem extractTail_startsWith {keyword body : Text} {n least most : Nat} {tail : Text}
    (h : extractTail P keyword n least most body = some tail) :
    Text.startsWith (P.toUpperCase (Text.trim body)) keyword = true := by
  by_contra other
  simp [extractTail, other] at h

/-- No text starts with both of two keywords that differ in their first letter. -/
theorem startsWith_unique {s keyword keyword' : Text} {c c' : UInt16}
    (h : Text.startsWith s (c :: keyword) = true) (h' : Text.startsWith s (c' :: keyword') = true) :
    c = c' := by
  obtain ⟨rest, rfl⟩ := List.isPrefixOf_iff_prefix.mp h
  obtain ⟨_, same⟩ := List.isPrefixOf_iff_prefix.mp h'
  exact (List.cons.inj same).1.symm

/-! ## The two messages -/

theorem generateCode_upperAlnum {length : Nat} {random : Nat → Nat} :
    ∀ c ∈ generateCode length random, Text.isUpperAlnum c = true := by
  have alphabet : ∀ c ∈ codeAlphabet, Text.isUpperAlnum c = true :=
    List.all_eq_true.mp (by decide)
  exact fun c hc => alphabet c (Text.mem_of_mem_draw (by decide) hc)

theorem generateNonce_upperAlnum {bytes : Nat → Nat} :
    ∀ c ∈ generateNonce bytes, Text.isUpperAlnum c = true := by
  have alphabet : ∀ c ∈ nonceAlphabet, Text.isUpperAlnum c = true :=
    List.all_eq_true.mp (by decide)
  exact fun c hc => alphabet c (Text.mem_of_mem_draw (by decide) hc)

theorem isAlnum_of_upper {c : UInt16} (h : Text.isUpperAlnum c = true) : Text.isAlnum c = true :=
  Bool.or_eq_true_iff.mpr (.inl h)

theorem verifyPrefix_letters : ∀ c ∈ verifyPrefix, Text.isUpperAlnum c = true :=
  List.all_eq_true.mp (by decide)

theorem bindPrefix_letters : ∀ c ∈ bindPrefix, Text.isUpperAlnum c = true :=
  List.all_eq_true.mp (by decide)

theorem verifyPrefix_upper (ascii : AsciiCase P) : P.toUpperCase verifyPrefix = verifyPrefix := by
  rw [ascii _ fun c hc => .inl (isAlnum_of_upper (verifyPrefix_letters c hc))]
  rfl

theorem extractCode_spelled (ascii : AsciiCase P) {length : Nat} {random : Nat → Nat} {body : Text}
    (permitted : CodeLength length)
    (h : Text.Spells verifyPrefix (generateCode length random) body) :
    extractCode P body = some (generateCode length random) := by
  have drawn : (generateCode length random).length = length := Text.length_draw
  rw [extractCode, verifyPrefix_upper ascii]
  refine extractTail_spelled ascii h verifyPrefix_letters (by decide) generateCode_upperAlnum
    (by decide) ?_
  rw [drawn]
  exact permitted

theorem extractBindNonce_spelled (ascii : AsciiCase P) {bytes : Nat → Nat} {body : Text}
    (h : Text.Spells bindPrefix (generateNonce bytes) body) :
    extractBindNonce P body = some (generateNonce bytes) := by
  have drawn : (generateNonce bytes).length = 24 := Text.length_draw
  refine extractTail_spelled ascii h bindPrefix_letters (by decide) generateNonce_upperAlnum
    (by decide) ?_
  rw [drawn]
  decide

/-- A text that starts with the keyword of the one is not read as the other. -/
theorem extractCode_of_bind (ascii : AsciiCase P) {body : Text}
    (h : Text.startsWith (P.toUpperCase (Text.trim body)) bindPrefix = true) :
    extractCode P body = none := by
  by_contra read
  obtain ⟨code, read⟩ := Option.ne_none_iff_exists'.mp read
  have verify := extractTail_startsWith read
  rw [verifyPrefix_upper ascii] at verify
  exact absurd (startsWith_unique (s := P.toUpperCase (Text.trim body)) verify h) (by decide)

/-- A post of a nonce's message goes to the bindings with that nonce. -/
theorem afterInsert_nonce {env : Env} (ascii : AsciiCase env.platform) {input : MatchInput}
    {bytes : Nat → Nat} (h : Text.Spells bindPrefix (generateNonce bytes) input.body) (i : Id)
    (now : Time) : afterInsert env input i now = .consumeBind i (generateNonce bytes) now := by
  simp only [afterInsert, extractBindNonce_spelled ascii h]

/-- A post of a code's message goes to the verifications with that code. -/
theorem afterInsert_code {env : Env} (ascii : AsciiCase env.platform) {input : MatchInput}
    {length : Nat} {random : Nat → Nat} (permitted : CodeLength length)
    (h : Text.Spells verifyPrefix (generateCode length random) input.body) (i : Id) (now : Time) :
    afterInsert env input i now = .claimSnapshot i (generateCode length random) now := by
  have code := extractCode_spelled ascii permitted h
  have other : extractBindNonce env.platform input.body = none := by
    by_contra read
    obtain ⟨nonce, read⟩ := Option.ne_none_iff_exists'.mp read
    rw [extractCode_of_bind ascii (extractTail_startsWith read)] at code
    contradiction
  simp only [afterInsert, other, code]

/-! ## Exactness -/

/-- For every code that is drawn and every body that spells it after its keyword, the body is read
as that code; the same for nonces; and no body is read as both, since one that starts with BIND is
never read as a code. -/
theorem parsing_exact (ascii : AsciiCase P) :
    (∀ length random body, CodeLength length →
      Text.Spells verifyPrefix (generateCode length random) body →
      extractCode P body = some (generateCode length random)) ∧
    (∀ bytes body, Text.Spells bindPrefix (generateNonce bytes) body →
      extractBindNonce P body = some (generateNonce bytes)) ∧
    (∀ body, Text.startsWith (P.toUpperCase (Text.trim body)) bindPrefix = true →
      extractCode P body = none) ∧
    ∀ body, extractCode P body = none ∨ extractBindNonce P body = none := by
  refine ⟨fun length random body permitted h => extractCode_spelled ascii permitted h,
    fun bytes body h => extractBindNonce_spelled ascii h,
    fun body h => extractCode_of_bind ascii h, fun body => ?_⟩
  cases read : extractBindNonce P body with
  | none => exact .inr rfl
  | some nonce => exact .inl (extractCode_of_bind ascii (extractTail_startsWith read))

/-- A code typed anyhow, and a nonce sent as it was handed out. -/
theorem parsing_exact_typed :
    extractCode .ascii (text " verify\ta aa AaA ") = some (generateCode 6 fun _ => 0) ∧
      extractBindNonce .ascii (bindPrefix ++ text " " ++ generateNonce id) =
        some (generateNonce id) := by
  obtain ⟨codes, nonces, _⟩ := parsing_exact asciiCase_ascii
  refine ⟨codes 6 (fun _ => 0) _ (Config.codeLength .default) ?_, nonces id _ (Text.spells_self ?_)⟩
  · exact ⟨text " ", text "verify", text "\ta aa AaA ", by decide,
      List.all_eq_true.mp (by decide), by decide, by decide⟩
  · exact fun c hc => Text.alnum_not_space (isAlnum_of_upper (generateNonce_upperAlnum c hc))

end Syrotp
