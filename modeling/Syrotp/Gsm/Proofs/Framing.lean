import Syrotp.Gsm.Storage

/-!
# Framing a response

The loop of `_command` tells result codes by the text of a line, and the lines of the bodies are in
the same stream, so it reads the whole listing exactly when no line of a body is a result code.
-/

namespace Syrotp.Gsm

open Py

/-- What the loop takes for a final result code. -/
def IsResultCode (line : Str) : Prop :=
  line = str "OK" ∨ startsWith line (str "ERROR") = true ∨ startsWith line (str "+CME ERROR") = true

instance (line : Str) : Decidable (IsResultCode line) :=
  inferInstanceAs (Decidable (_ ∨ _ ∨ _))

/-- The lines that are sent for the messages, without their terminators. -/
def strippedLines (messages : List StoredSms) : List Str :=
  messages.flatMap fun m => m.header :: m.bodyLines.map rstripLine

/-- Those of them that are not empty. -/
def listing (messages : List StoredSms) : List Str := (strippedLines messages).filter (· ≠ [])

/-- The reads of the loop bring all that the modem sends, and perhaps more, with timeouts in
between. -/
def Delivers (reads : List Bytes) (messages : List StoredSms) : Prop :=
  ∃ more, (reads.filter (· ≠ [])).map decodeAscii = readlines (sent messages ++ more)

/-! ## Lines -/

/-- `readline` ends a line at its newline. -/
theorem readlines_append {line rest : Str} (plain : '\n' ∉ line) :
    readlines (line ++ '\n' :: rest) = (line ++ ['\n']) :: readlines rest := by
  induction line with
  | nil => simp [readlines]
  | cons c line ih =>
    have other : c ≠ '\n' := fun same => plain (same ▸ List.mem_cons_self)
    have tail := ih fun h => plain (List.mem_cons_of_mem _ h)
    simp [readlines, other, tail]

theorem rstripLine_newline (line : Str) : rstripLine (line ++ ['\n']) = rstripLine line := by
  simp [rstripLine]

theorem rstripLine_return (line : Str) : rstripLine (line ++ ['\r']) = rstripLine line := by
  simp [rstripLine]

/-- A body is read as its lines. -/
theorem readlines_join {lines : List Str} (nonempty : lines ≠ [])
    (plain : ∀ l ∈ lines, '\n' ∉ l) (rest : Str) :
    (readlines (['\n'].intercalate lines ++ '\r' :: '\n' :: rest)).map rstripLine =
      lines.map rstripLine ++ (readlines rest).map rstripLine := by
  induction lines with
  | nil => exact absurd rfl nonempty
  | cons line lines ih =>
    have here := plain line List.mem_cons_self
    cases lines with
    | nil =>
      have ended : '\n' ∉ line ++ ['\r'] := by simpa using here
      have read : readlines (line ++ ['\r'] ++ '\n' :: rest) =
          (line ++ ['\r'] ++ ['\n']) :: readlines rest := readlines_append ended
      rw [List.append_assoc] at read
      simp only [List.intercalate_singleton, List.map_cons, List.map_nil]
      rw [show line ++ '\r' :: '\n' :: rest = line ++ (['\r'] ++ '\n' :: rest) from rfl, read,
        List.map_cons, rstripLine_newline, rstripLine_return]
      rfl
    | cons next lines =>
      have tail := ih (by simp) fun l hl => plain l (List.mem_cons_of_mem _ hl)
      rw [List.intercalate_cons_cons, List.append_assoc, List.append_assoc, List.singleton_append,
        readlines_append here, List.map_cons, tail, rstripLine_newline]
      rfl

theorem not_mem_of_mem_splitOn {α : Type*} [DecidableEq α] {a : α} {xs l : List α}
    (h : l ∈ xs.splitOn a) : a ∉ l := by
  induction xs generalizing l with
  | nil =>
    obtain rfl := List.mem_singleton.mp h
    exact List.not_mem_nil
  | cons x xs ih =>
    rw [List.splitOn_cons_eq_if_modifyHead] at h
    split at h
    · rcases List.mem_cons.mp h with rfl | h
      · exact List.not_mem_nil
      · exact ih h
    · next other =>
      cases split : xs.splitOn a with
      | nil => exact absurd split (List.splitOn_ne_nil a xs)
      | cons first others =>
        rw [split, List.modifyHead_cons] at h
        rcases List.mem_cons.mp h with rfl | h
        · have rest : a ∉ first := ih (split ▸ List.mem_cons_self)
          simp only [List.mem_cons, not_or]
          exact ⟨fun same => other (by simp [same]), rest⟩
        · exact ih (split ▸ List.mem_cons_of_mem _ h)

/-! ## What is sent -/

theorem header_rstripLine (m : StoredSms) : rstripLine m.header = m.header := by
  simp [StoredSms.header, rstripLine]

theorem header_plain (m : StoredSms) : '\n' ∉ m.header := by
  have digits : '\n' ∉ Nat.toDigits 10 m.index := fun h =>
    absurd (Nat.isDigit_of_mem_toDigits (by decide) (by decide) h) (by decide)
  have alpha : '\n' ∉ alphaField m.alpha := by
    cases name : m.alpha with
    | none => exact List.not_mem_nil
    | some a =>
      have plain := (m.alpha_quotable a name).1.2
      simp [alphaField, plain]
  simp [StoredSms.header, cmglPrefix, str, digits, alpha, m.status_quotable.2,
    m.sender_quotable.2, m.scts_quotable.2]

theorem header_not_resultCode (m : StoredSms) : ¬IsResultCode m.header := by
  simp [IsResultCode, StoredSms.header, cmglPrefix, str, startsWith]

/-- All of it is read, line by line. -/
theorem readlines_sent (messages : List StoredSms) (more : Str) :
    (readlines (sent messages ++ more)).map rstripLine =
      strippedLines messages ++ str "OK" :: (readlines more).map rstripLine := by
  have final : readlines (str "OK\r" ++ '\n' :: more) = str "OK\r\n" :: readlines more :=
    readlines_append (by decide)
  induction messages with
  | nil =>
    rw [show sent [] ++ more = str "OK\r" ++ '\n' :: more from rfl, final]
    rfl
  | cons m messages ih =>
    have body := readlines_join (List.splitOn_ne_nil '\n' m.body)
      (fun l hl => not_mem_of_mem_splitOn hl) (sent messages ++ more)
    have header : '\n' ∉ m.header ++ ['\r'] := by simp [header_plain]
    have split : sent (m :: messages) ++ more =
        (m.header ++ ['\r']) ++ '\n' :: (m.body ++ '\r' :: '\n' :: (sent messages ++ more)) := by
      simp [sent]
    rw [List.intercalate_splitOn] at body
    rw [split, readlines_append header, List.map_cons, body, ih, rstripLine_newline,
      rstripLine_return, header_rstripLine]
    simp [strippedLines, StoredSms.bodyLines]

/-! ## The loop -/

/-- The loop returns the lines before the first `OK` of all exactly when there is no result code
among them. -/
theorem readResponse_ok {cmd : Str} {reads : List Bytes} {lines before rest : List Str}
    (h : (reads.filter (· ≠ [])).map (fun raw => rstripLine (decodeAscii raw)) =
      before ++ str "OK" :: rest) :
    readResponse cmd (str "OK") reads lines = .ok (lines ++ before.filter (· ≠ [])) ↔
      ∀ l ∈ before, ¬IsResultCode l := by
  induction reads generalizing lines before with
  | nil => exact absurd h.symm (by simp)
  | cons raw reads ih =>
    unfold readResponse
    by_cases timedOut : raw = []
    · rw [if_pos timedOut]
      exact ih (by simpa [timedOut] using h)
    · rw [if_neg timedOut]
      rw [List.filter_cons_of_pos (by simpa using timedOut), List.map_cons] at h
      cases before with
      | nil =>
        obtain ⟨line, -⟩ := List.cons.inj h
        simp [line, str]
      | cons l before =>
        obtain ⟨line, tail⟩ := List.cons.inj h
        simp only [line, List.forall_mem_cons]
        by_cases blank : l = []
        · have plain : ¬IsResultCode l := by
            subst blank
            decide
          rw [if_pos blank, List.filter_cons_of_neg (by simpa using blank), ih tail]
          exact ⟨fun all => ⟨plain, all⟩, fun all => all.2⟩
        · rw [if_neg blank, List.filter_cons_of_pos (by simpa using blank)]
          by_cases ok : l = str "OK"
          · simp [ok, IsResultCode]
          · by_cases bad :
                startsWith l (str "ERROR") = true ∨ startsWith l (str "+CME ERROR") = true
            · rw [if_neg ok, if_pos bad]
              exact ⟨nofun, fun all => absurd (.inr bad) all.1⟩
            · have shift : lines ++ l :: before.filter (· ≠ []) =
                  lines ++ [l] ++ before.filter (· ≠ []) := List.append_cons ..
              rw [if_neg ok, if_neg bad, shift, ih tail]
              exact ⟨fun all => ⟨not_or.mpr ⟨ok, bad⟩, all⟩, fun all => all.2⟩

/-- The lines that are sent have a result code among them only in a body. -/
theorem strippedLines_plain (messages : List StoredSms) :
    (∀ l ∈ strippedLines messages, ¬IsResultCode l) ↔
      ∀ m ∈ messages, ∀ l ∈ m.bodyLines, ¬IsResultCode (rstripLine l) := by
  simp only [strippedLines, List.forall_mem_flatMap, List.forall_mem_cons, List.forall_mem_map,
    header_not_resultCode, not_false_eq_true, true_and]

/-- `_command` returns the whole listing, and `list_sms` parses it, exactly when no line of a body
is a result code. -/
theorem listing_received (clock : Nat → Int) {reads : List Bytes} {messages : List StoredSms}
    (delivers : Delivers reads messages) :
    (command true (str "AT+CMGL=\"ALL\"") (str "OK") reads = .ok (listing messages) ∧
        listSms true clock reads = parseCmglBlock clock 0 (listing messages)) ↔
      ∀ m ∈ messages, ∀ l ∈ m.bodyLines, ¬IsResultCode (rstripLine l) := by
  obtain ⟨more, delivered⟩ := delivers
  have stripped : (reads.filter (· ≠ [])).map (fun raw => rstripLine (decodeAscii raw)) =
      strippedLines messages ++ str "OK" :: (readlines more).map rstripLine := by
    rw [← readlines_sent, ← delivered, List.map_map]
    rfl
  have answer : command true (str "AT+CMGL=\"ALL\"") (str "OK") reads = .ok (listing messages) ↔
      ∀ l ∈ strippedLines messages, ¬IsResultCode l := readResponse_ok stripped
  rw [← strippedLines_plain, ← answer]
  exact ⟨fun ⟨received, _⟩ => received, fun received => ⟨received, by rw [listSms, received]⟩⟩

/-- The reads of an undisturbed answer. -/
def answered (messages : List StoredSms) : List Bytes :=
  (readlines (sent messages)).map fun line => line.map fun c => UInt8.ofNat c.toNat

def greeting : StoredSms where
  index := 2
  status := str "REC READ"
  sender := str "+963993333333"
  alpha := some (str "Home")
  scts := str "26/05/02,14:33:11+12"
  body := str "hi, \"you\"\n\nit is OK\nno ERROR"
  status_quotable := by decide
  sender_quotable := by decide
  alpha_quotable := by
    rintro a ⟨rfl⟩
    decide
  scts_quotable := by decide
  scts_nonempty := by decide

theorem listing_received_greeting :
    command true (str "AT+CMGL=\"ALL\"") (str "OK") (answered [greeting]) =
        .ok (listing [greeting]) ∧
      listSms true (fun _ => 0) (answered [greeting]) =
        parseCmglBlock (fun _ => 0) 0 (listing [greeting]) :=
  (listing_received (fun _ => 0) ⟨[], by decide +kernel⟩).mpr (by decide +kernel)

/-- A message with a line `ERROR`. -/
def refusal : StoredSms :=
  { greeting with index := 1, body := str "VERIFY AAAAAA\nERROR" }

/-- With it on the modem the command fails and no message is seen. -/
theorem body_line_ends_response : Delivers (answered [refusal, greeting]) [refusal, greeting] ∧
    command true (str "AT+CMGL=\"ALL\"") (str "OK") (answered [refusal, greeting]) =
      .error (.error (str "AT+CMGL=\"ALL\"") (str "ERROR")) ∧
    listSms true (fun _ => 0) (answered [refusal, greeting]) = [] :=
  ⟨⟨[], by decide +kernel⟩, by decide +kernel⟩

end Syrotp.Gsm
