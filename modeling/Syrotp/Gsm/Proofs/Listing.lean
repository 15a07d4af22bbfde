import Syrotp.Gsm.Proofs.Framing
import Mathlib.Data.List.DropRight

/-!
# Parsing a listing

The parser takes a body to end at the first line that looks like a header, so it reads a listing
back exactly when no line of a body does.
-/

namespace Syrotp.Gsm

open Py

/-! ## Headers -/

theorem Quotable.notQuote {s : Str} (h : Quotable s) : ∀ c ∈ s, notQuote c = true := by
  intro c hc
  simp only [Gsm.notQuote, bne_iff_ne, ne_eq]
  rintro rfl
  exact h.1 hc

/-- The end of a header, from its name field on. -/
theorem captures_alpha {pieces : List (Piece Char)} {alpha : Option Str} {rest : Str}
    {r : List Str} (quotable : ∀ a, alpha = some a → Quotable a ∧ ',' ∉ a)
    (h : captures pieces (',' :: rest) = some r) :
    ∃ a b c, captures (.opt isQuote :: .many isAlpha :: .opt isQuote :: .many isSpace :: pieces)
      (alphaField alpha ++ ',' :: rest) = some (a :: b :: c :: [] :: r) := by
  have spaces := captures_many_nil (p := isSpace) (stops_cons rfl) h
  cases alpha with
  | none =>
    refine ⟨[], [], [], captures_opt_nil (stops_cons rfl) ?_⟩
    exact captures_many_nil (stops_cons rfl) (captures_opt_nil (stops_cons rfl) spaces)
  | some a =>
    obtain ⟨plain, comma⟩ := quotable a rfl
    have run : ∀ c ∈ a, isAlpha c = true := by
      intro c hc
      have other : c ≠ ',' := by
        rintro rfl
        exact comma hc
      have unquoted := plain.notQuote c hc
      simp only [notQuote] at unquoted
      simp [isAlpha, unquoted, other]
    refine ⟨['"'], a, ['"'], ?_⟩
    rw [alphaField, List.cons_append, List.append_assoc]
    exact captures_opt rfl (captures_many run (stops_cons rfl) (captures_opt rfl spaces))

/-- The pattern reads back a header that was printed. -/
theorem cmglHeader_header (m : StoredSms) :
    cmglHeader m.header = some ⟨Nat.toDigits 10 m.index, m.sender, m.scts⟩ := by
  have digits : ∀ c ∈ Nat.toDigits 10 m.index, isDecimal c = true :=
    fun c hc => isDecimal_of_isDigit (Nat.isDigit_of_mem_toDigits (by decide) (by decide) hc)
  have scts : captures [.many1 notQuote, .lit ['"']] (m.scts ++ ['"']) = some [m.scts, ['"']] :=
    captures_many1 m.scts_quotable.notQuote m.scts_nonempty (stops_cons rfl) rfl
  have closing : captures [.lit [','], .many isSpace, .lit ['"'], .many1 notQuote, .lit ['"']]
      (',' :: '"' :: (m.scts ++ ['"'])) = some [[','], [], ['"'], m.scts, ['"']] :=
    captures_lit (captures_many_nil (stops_cons rfl) (captures_lit scts))
  obtain ⟨a, b, c, fields⟩ := captures_alpha m.alpha_quotable closing
  have name : Stops isSpace (alphaField m.alpha ++ ',' :: '"' :: (m.scts ++ ['"'])) := by
    cases m.alpha <;> exact stops_cons rfl
  have sender := captures_many m.sender_quotable.notQuote (stops_cons rfl)
    (captures_lit (s := ['"', ',']) (captures_many_nil name fields))
  have status := captures_many m.status_quotable.notQuote (stops_cons rfl)
    (captures_lit (s := ['"', ',']) (captures_many_nil (p := isSpace) (stops_cons rfl)
      (captures_lit (s := ['"']) sender)))
  have index := captures_many1 digits Nat.toDigits_ne_nil (stops_cons rfl)
    (captures_lit (s := [',']) (captures_many_nil (p := isSpace) (stops_cons rfl)
      (captures_lit (s := ['"']) status)))
  have space : ∀ c ∈ [' '], isSpace c = true := by simp [isSpace]
  have found : captures cmglPattern m.header = some _ :=
    captures_lit (captures_many space
      (stops_append Nat.toDigits_ne_nil fun d hd => isSpace_of_isDecimal (digits d hd)) index)
  rw [cmglHeader, found]
  rfl

theorem header_startsWith (m : StoredSms) : startsWith m.header cmglPrefix = true :=
  List.isPrefixOf_iff_prefix.mpr (List.prefix_append _ _)

/-! ## The block parser -/

/-- A printed header starts a message, whose body are the lines up to the next header-like one. -/
theorem parseCmglBlock_header {clock : Nat → Int} {found : Nat} (m : StoredSms)
    (rest : List Str) : parseCmglBlock clock found (m.header :: rest) =
      ⟨m.index, m.sender, parseSctsToMs (clock found) m.scts,
        strip (['\n'].intercalate (rest.takeWhile isBodyLine))⟩ ::
        parseCmglBlock clock (found + 1) (rest.dropWhile isBodyLine) := by
  have index : intOfDigits (Nat.toDigits 10 m.index) = m.index := by
    rw [intOfDigits_eq fun c hc => Nat.isDigit_of_mem_toDigits (by decide) (by decide) hc,
      Nat.ofDigitChars_ten_toDigits]
  rw [parseCmglBlock, cmglHeader_header]
  simp only [index]

/-- The listing of further messages is empty or starts with a header. -/
theorem stops_isBodyLine (messages : List StoredSms) :
    Stops isBodyLine (messages.flatMap StoredSms.lines) := by
  cases messages with
  | nil => exact fun _ h => nomatch h
  | cons m messages => exact stops_cons (by simp [isBodyLine, header_startsWith])

/-! ## Ink -/

/-- The characters of a text that show. -/
def ink (s : Str) : Nat := s.countP fun c => !isSpace c

theorem ink_dropWhile (s : Str) : ink (s.dropWhile isSpace) = ink s := by
  induction s with
  | nil => rfl
  | cons c s ih => by_cases space : isSpace c = true <;> simp_all [ink]

/-- Stripping takes off none of it. -/
theorem ink_strip (s : Str) : ink (strip s) = ink s := by
  have reverse : ∀ t : Str, ink t.reverse = ink t := fun t => List.countP_reverse
  rw [strip, trim, reverse, ink_dropWhile, reverse, ink_dropWhile]

/-- Joining lines adds none. -/
theorem ink_join (lines : List Str) : ink (['\n'].intercalate lines) = (lines.map ink).sum := by
  induction lines with
  | nil => rfl
  | cons line lines ih =>
    cases lines with
    | nil => simp [ink]
    | cons next lines =>
      rw [List.intercalate_cons_cons, List.map_cons, List.sum_cons, ← ih]
      simp [ink, isSpace]

theorem strip_strip (s : Str) : strip (strip s) = strip s := by
  -- what is left starts with a character that shows, if it is not empty
  have start : (strip s).dropWhile isSpace = strip s := by
    have lead : strip s <+: s.dropWhile isSpace := List.rdropWhile_prefix isSpace _
    cases left : strip s with
    | nil => rfl
    | cons c cs =>
      obtain ⟨rest, same⟩ := left ▸ lead
      have shows : isSpace c = false := by
        have head := List.head?_dropWhile_not isSpace s
        rw [← same] at head
        simpa using head
      simp [shows]
  calc strip (strip s) = (strip s).rdropWhile isSpace := by rw [strip, trim, start]; rfl
    _ = strip s := List.rdropWhile_idempotent isSpace _

/-! ## Reading back -/

/-- A message with a header-like body line is read back with a shorter body. -/
theorem forged_body_differs {lines : List Str} (forged : ∃ l ∈ lines, isBodyLine l = false)
    (rest : List Str) :
    strip (strip (['\n'].intercalate ((lines ++ rest).takeWhile isBodyLine))) ≠
      strip (['\n'].intercalate lines) := by
  have parts := List.takeWhile_append_dropWhile (p := isBodyLine) (l := lines)
  have plain : ∀ l ∈ lines.takeWhile isBodyLine, isBodyLine l = true :=
    fun l hl => List.mem_takeWhile_imp hl
  cases cut : lines.dropWhile isBodyLine with
  | nil =>
    obtain ⟨l, hl, header⟩ := forged
    rw [cut, List.append_nil] at parts
    rw [plain l (parts.symm ▸ hl)] at header
    contradiction
  | cons bad post =>
    have header : isBodyLine bad = false := by
      have head := List.head?_dropWhile_not isBodyLine lines
      simpa [cut] using head
    have shows : 0 < ink bad := by
      simp only [isBodyLine, startsWith, Bool.not_eq_false', List.isPrefixOf_iff_prefix] at header
      obtain ⟨tail, rfl⟩ := header
      simp [ink, cmglPrefix, str, isSpace]
    intro same
    have ends := congrArg ink same
    rw [← parts, cut, List.append_assoc, List.cons_append,
      (takeWhile_append_stops plain (stops_cons header)).1] at ends
    simp only [ink_strip, ink_join, List.map_append, List.sum_append, List.map_cons,
      List.sum_cons] at ends
    omega

theorem join_bodyLines (m : StoredSms) : ['\n'].intercalate m.bodyLines = m.body :=
  List.intercalate_splitOn '\n'

/-- The parser reads a listing back, message by message in order, exactly when no line of a body
starts like a header. -/
theorem listing_read_back (clock : Nat → Int) (messages : List StoredSms) :
    (parseCmglBlock clock 0 (messages.flatMap StoredSms.lines)).map IncomingSms.content =
        messages.map StoredSms.content ↔
      ∀ m ∈ messages, ∀ line ∈ m.bodyLines, startsWith line cmglPrefix = false := by
  suffices general : ∀ found,
      (parseCmglBlock clock found (messages.flatMap StoredSms.lines)).map IncomingSms.content =
          messages.map StoredSms.content ↔
        ∀ m ∈ messages, ∀ line ∈ m.bodyLines, isBodyLine line = true by
    simpa [isBodyLine] using general 0
  induction messages with
  | nil => simp [parseCmglBlock]
  | cons m messages ih =>
    intro found
    rw [List.flatMap_cons, StoredSms.lines, List.cons_append, parseCmglBlock_header,
      List.map_cons, List.map_cons, List.cons.injEq]
    by_cases plain : ∀ line ∈ m.bodyLines, isBodyLine line = true
    · obtain ⟨body, rest⟩ := takeWhile_append_stops plain (stops_isBodyLine messages)
      rw [body, rest, ih (found + 1), List.forall_mem_cons]
      exact and_congr_left fun _ => ⟨fun _ => plain, fun _ => by
        rw [IncomingSms.content, StoredSms.content, join_bodyLines, strip_strip]⟩
    · refine ⟨?_, fun all => absurd (all m List.mem_cons_self) plain⟩
      rintro ⟨same, _⟩
      have forged : ∃ l ∈ m.bodyLines, isBodyLine l = false := by
        simpa using plain
      have body := (Prod.mk.inj (Prod.mk.inj same).2).2
      rw [← join_bodyLines] at body
      exact absurd body (forged_body_differs forged _)

/-- A message whose second line is a header of another. -/
def forgery : StoredSms :=
  { greeting with
    index := 1
    status := str "REC UNREAD"
    sender := str "+963991111111"
    alpha := none
    body := str "hello\n+CMGL: 2,\"REC UNREAD\",\"+963992222222\",,\"26/05/02,14:33:11+12\"" ++
      str "\nVERIFY AAAAAA"
    status_quotable := by decide
    sender_quotable := by decide
    alpha_quotable := nofun }

/-- Its listing is read as two messages, the second from the sender that its text names. -/
theorem forgery_is_read : (parseCmglBlock (fun _ => 0) 0 ([forgery].flatMap StoredSms.lines)).map
      IncomingSms.content =
    [(1, str "+963991111111", str "hello"), (2, str "+963992222222", str "VERIFY AAAAAA")] ∧
    (parseCmglBlock (fun _ => 0) 0 ([forgery].flatMap StoredSms.lines)).map IncomingSms.content ≠
      [forgery].map StoredSms.content := by
  decide +kernel

end Syrotp.Gsm
