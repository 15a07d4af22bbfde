import Syrotp.Gsm.Proofs.StationStep
import Syrotp.Gsm.Proofs.Listing

/-!
# Where the messages of a poll come from

A poll makes one message of each line of the listing that looks like a header, the printed ones and
those in a body alike. What it makes of one depends on the stored message the line is in, on the
line's number in it, and on the clock: the body ends before the listing goes on with the next slot.
-/

namespace Syrotp.Gsm

open Py

/-! ## Headers and bodies -/

/-- The message of a header and the lines of its body. -/
def record (clock : Int) (h : CmglHeader) (lines : List Str) : IncomingSms :=
  ⟨intOfDigits h.index, h.sender, parseSctsToMs clock h.scts, strip (['\n'].intercalate lines)⟩

section Cuts

variable {τ : Type*}

/-- The headers among labelled lines, each with the label and with the lines of its body. -/
def cuts : List (τ × Str) → List (τ × CmglHeader × List Str)
  | [] => []
  | l :: rest =>
    match cmglHeader l.2 with
    | none => cuts rest
    | some h => (l.1, h, (rest.map (·.2)).takeWhile isBodyLine) :: cuts rest

/-- A header ends a body. -/
theorem isBodyLine_of_cmglHeader {line : Str} {h : CmglHeader} (found : cmglHeader line = some h) :
    isBodyLine line = false := by
  obtain ⟨groups, matched, _⟩ := Option.map_eq_some_iff.mp found
  have starts : cmglPrefix.isPrefixOf line = true := by
    by_contra other
    rw [cmglPattern, captures, if_neg other] at matched
    cases matched
  rw [isBodyLine, startsWith, starts]
  rfl

theorem cuts_dropWhile (lines : List (τ × Str)) :
    cuts (lines.dropWhile fun l => isBodyLine l.2) = cuts lines := by
  induction lines with
  | nil => rfl
  | cons l rest ih =>
    by_cases body : isBodyLine l.2 = true
    · have none : cmglHeader l.2 = none := by
        by_contra found
        obtain ⟨h, found⟩ := Option.ne_none_iff_exists'.mp found
        rw [isBodyLine_of_cmglHeader found] at body
        cases body
      simp only [List.dropWhile_cons, body, if_true, ih, cuts, none]
    · simp only [List.dropWhile_cons, body, if_false, Bool.false_eq_true]

/-- The parser makes one message of each header. -/
theorem parseCmglBlock_eq (clock : Nat → Int) (found : Nat) (lines : List (τ × Str)) :
    parseCmglBlock clock found (lines.map (·.2)) =
      (cuts lines).mapIdx fun i c => record (clock (found + i)) c.2.1 c.2.2 := by
  induction hn : lines.length using Nat.strong_induction_on generalizing found lines with
  | _ n ih =>
    cases lines with
    | nil => simp [parseCmglBlock, cuts]
    | cons l rest =>
      rw [List.map_cons, parseCmglBlock]
      cases head : cmglHeader l.2 with
      | none =>
        simp only [cuts, head]
        exact ih rest.length (by simp [← hn]) found rest rfl
      | some h =>
        have shorter : (rest.dropWhile fun l => isBodyLine l.2).length < n := by
          rw [← hn, List.length_cons]
          exact Nat.lt_succ_of_le (List.dropWhile_suffix _).length_le
        have tail := ih _ shorter (found + 1) _ rfl
        rw [cuts_dropWhile] at tail
        simp only [cuts, head, List.dropWhile_map, List.mapIdx_cons, Nat.add_zero]
        rw [show (isBodyLine ∘ fun l : τ × Str => l.2) = fun l => isBodyLine l.2 from rfl, tail]
        simp only [Nat.add_assoc, Nat.add_comm 1]
        rfl

theorem takeWhile_append_of_stops {p : Str → Bool} {a b : List Str} (stops : Stops p b) :
    (a ++ b).takeWhile p = a.takeWhile p := by
  have halt : b.takeWhile p = [] := by
    cases b with
    | nil => rfl
    | cons l b => exact List.takeWhile_cons_of_neg (by simp [stops l rfl])
  rw [List.takeWhile_append]
  split
  · next all =>
    rw [halt, List.append_nil]
    exact ((List.takeWhile_prefix p).eq_of_length all).symm
  · rfl

/-- What follows a body does not matter to it if it starts like a header. -/
theorem cuts_append {a b : List (τ × Str)} (stops : Stops isBodyLine (b.map (·.2))) :
    cuts (a ++ b) = cuts a ++ cuts b := by
  induction a with
  | nil => rfl
  | cons l a ih =>
    simp only [List.cons_append, cuts]
    cases cmglHeader l.2 with
    | none => exact ih
    | some h =>
      simp only [List.map_append, takeWhile_append_of_stops stops, ih, List.cons_append]

end Cuts

/-! ## The lines that a command returns -/

/-- A line that does not end the response. -/
def isClean (line : Str) : Bool := !decide (IsResultCode line)

/-- A command that succeeds has come to a line `OK`, and returns what is before it. -/
theorem readResponse_eq_ok {cmd : Str} {reads : List Bytes} {lines result : List Str}
    (h : readResponse cmd (str "OK") reads lines = .ok result) : ∃ before rest,
      (reads.filter (· ≠ [])).map (fun raw => rstripLine (decodeAscii raw)) =
        before ++ str "OK" :: rest ∧
      (∀ l ∈ before, isClean l = true) ∧ result = lines ++ before.filter (· ≠ []) := by
  induction reads generalizing lines with
  | nil => cases h
  | cons raw reads ih =>
    unfold readResponse at h
    by_cases timedOut : raw = []
    · rw [if_pos timedOut] at h
      simpa [timedOut] using ih h
    · rw [if_neg timedOut] at h
      rw [List.filter_cons_of_pos (by simpa using timedOut), List.map_cons]
      dsimp only at h
      generalize rstripLine (decodeAscii raw) = line at h
      split_ifs at h with blank ok expected bad
      · obtain ⟨before, rest, all, clean, rfl⟩ := ih h
        refine ⟨line :: before, rest, by rw [all]; rfl, ?_, by simp [blank]⟩
        exact List.forall_mem_cons.mpr ⟨by rw [blank]; decide, clean⟩
      · obtain rfl := Except.ok.inj h
        exact ⟨[], _, by rw [ok]; rfl, by simp, by simp⟩
      · obtain ⟨before, rest, all, clean, rfl⟩ := ih h
        refine ⟨line :: before, rest, by rw [all]; rfl, ?_, by simp [blank]⟩
        have plain : ¬IsResultCode line := not_or.mpr ⟨ok, bad⟩
        exact List.forall_mem_cons.mpr ⟨by simp [isClean, plain], clean⟩

theorem listing_eq (messages : List StoredSms) :
    listing messages = messages.flatMap StoredSms.received := by
  rw [listing, strippedLines, List.filter_flatMap]
  rfl

/-- Empty lines do not end the response. -/
theorem filter_takeWhile_isClean (lines : List Str) :
    (lines.takeWhile isClean).filter (· ≠ []) = (lines.filter (· ≠ [])).takeWhile isClean := by
  induction lines with
  | nil => rfl
  | cons l lines ih =>
    have blank : isClean [] = true := by decide
    by_cases empty : l = []
    · subst empty
      rw [List.takeWhile_cons_of_pos blank, List.filter_cons_of_neg (by simp), ih,
        List.filter_cons_of_neg (by simp)]
    · have kept : decide (l ≠ []) = true := by simpa using empty
      rw [List.filter_cons_of_pos (p := fun l => decide (l ≠ [])) kept]
      by_cases clean : isClean l = true
      · rw [List.takeWhile_cons_of_pos clean, List.takeWhile_cons_of_pos clean,
          List.filter_cons_of_pos (p := fun l => decide (l ≠ [])) kept, ih]
      · rw [List.takeWhile_cons_of_neg clean, List.takeWhile_cons_of_neg clean, List.filter_nil]

theorem lines_eq (s : Station) :
    (s.slots.flatMap Slot.lines).map (·.2) = listing (s.slots.map Slot.sms) := by
  rw [listing_eq, List.map_flatMap, List.flatMap_map]
  refine List.flatMap_congr fun slot _ => ?_
  apply List.ext_getElem <;> simp [Slot.lines]

/-- So a poll gets the lines of the slots up to the first that ends the response. -/
theorem command_eq_ok {s : Station} {reads : List Bytes} {cmd : Str} {lines : List Str}
    (brings : s.Brings reads) (h : command true cmd (str "OK") reads = .ok lines) :
    lines = ((s.slots.flatMap Slot.lines).takeWhile fun l => isClean l.2).map (·.2) := by
  obtain ⟨before, rest, all, clean, rfl⟩ := readResponse_eq_ok h
  have sends := readlines_sent (s.slots.map Slot.sms) []
  simp only [List.append_nil, readlines, List.map_nil] at sends
  have whole : before ++ str "OK" :: rest <+:
      strippedLines (s.slots.map Slot.sms) ++ [str "OK"] := by
    have brought := brings.map rstripLine
    rw [List.map_map, sends] at brought
    exact all ▸ brought
  obtain ⟨more, whole⟩ := whole
  have cut : before = (strippedLines (s.slots.map Slot.sms)).takeWhile isClean := by
    have stops : ∀ t, Stops isClean (str "OK" :: t) := fun t => stops_cons (by decide)
    rw [List.append_assoc] at whole
    have both := congrArg (List.takeWhile isClean) whole
    rw [List.cons_append, (takeWhile_append_stops clean (stops _)).1,
      takeWhile_append_of_stops (stops [])] at both
    exact both
  rw [List.nil_append, cut, filter_takeWhile_isClean, ← listing, ← lines_eq, List.takeWhile_map]
  rfl

/-! ## Parts of a message -/

/-- The lines received of a message after its `i`th, up to one that ends the body. -/
def StoredSms.bodyAfter (m : StoredSms) (i : Nat) : List Str :=
  ((m.received.drop (i + 1)).takeWhile isClean).takeWhile isBodyLine

/-- What a poll makes of the `i`th line of a message: the timestamp in it, and the message. -/
def StoredSms.part (m : StoredSms) (i : Nat) (clock : Int) : Option (Str × IncomingSms) :=
  (m.received[i]?.bind cmglHeader).map fun h => (h.scts, record clock h (m.bodyAfter i))

/-- The headers in the lines of one message. -/
theorem mem_cuts {τ : Type*} (label : Nat → τ) (lines : List Str) {c : τ × CmglHeader × List Str}
    (h : c ∈ cuts ((lines.mapIdx fun i l => (label i, l)).takeWhile fun l => isClean l.2)) :
    ∃ i, c.1 = label i ∧ lines[i]?.bind cmglHeader = some c.2.1 ∧
      c.2.2 = ((lines.drop (i + 1)).takeWhile isClean).takeWhile isBodyLine := by
  induction lines generalizing label with
  | nil => exact absurd h List.not_mem_nil
  | cons l lines ih =>
    have later : c ∈ cuts ((lines.mapIdx fun i l => (label (i + 1), l)).takeWhile
        fun l => isClean l.2) → ∃ i, c.1 = label i ∧
        (l :: lines)[i]?.bind cmglHeader = some c.2.1 ∧
        c.2.2 = (((l :: lines).drop (i + 1)).takeWhile isClean).takeWhile isBodyLine := by
      intro hc
      obtain ⟨i, place, found, body⟩ := ih (fun i => label (i + 1)) hc
      exact ⟨i + 1, place, by simpa using found, by simpa using body⟩
    rw [List.mapIdx_cons, List.takeWhile_cons] at h
    split at h
    · simp only [cuts] at h
      split at h
      · exact later h
      · next header found =>
        rcases List.mem_cons.mp h with rfl | h
        · refine ⟨0, rfl, by simpa using found, ?_⟩
          have bare : (lines.mapIdx fun i l => (label (i + 1), l)).map (·.2) = lines := by
            apply List.ext_getElem <;> simp
          have tail : ((lines.mapIdx fun i l => (label (i + 1), l)).takeWhile
              fun l => isClean l.2).map (·.2) = lines.takeWhile isClean := by
            rw [← congrArg (List.takeWhile isClean) bare, List.takeWhile_map]
            rfl
          exact congrArg (List.takeWhile isBodyLine) tail
        · exact later h
    · exact absurd h List.not_mem_nil

/-- The first line of a message is its header. -/
theorem received_eq (m : StoredSms) :
    m.received = m.header :: (m.bodyLines.map rstripLine).filter (· ≠ []) := by
  have filled : m.header ≠ [] := List.cons_ne_nil _ _
  exact List.filter_cons_of_pos (by simpa using filled)

/-- So a body ends where the next slot begins. -/
theorem stops_slots (slots : List Slot) : Stops isBodyLine
    (((slots.flatMap Slot.lines).takeWhile fun l => isClean l.2).map (·.2)) := by
  cases slots with
  | nil => exact fun _ h => nomatch h
  | cons slot slots =>
    have clean : isClean slot.sms.header = true := by
      simp [isClean, header_not_resultCode]
    rw [List.flatMap_cons, Slot.lines, received_eq, List.mapIdx_cons, List.cons_append,
      List.takeWhile_cons, if_pos clean]
    exact stops_cons (by simp [isBodyLine, header_startsWith])

/-- A header in the listing is one in the lines of a slot, with the body that it has there. -/
theorem mem_cuts_slots {slots : List Slot} {c : Place × CmglHeader × List Str}
    (h : c ∈ cuts ((slots.flatMap Slot.lines).takeWhile fun l => isClean l.2)) :
    ∃ slot ∈ slots, c.1.message = slot.message ∧
      slot.sms.received[c.1.line]?.bind cmglHeader = some c.2.1 ∧
      c.2.2 = slot.sms.bodyAfter c.1.line := by
  induction slots with
  | nil => exact absurd h List.not_mem_nil
  | cons slot slots ih =>
    rw [List.flatMap_cons, List.takeWhile_append] at h
    split at h
    · next whole =>
      rw [cuts_append (stops_slots slots)] at h
      rcases List.mem_append.mp h with first | rest
      · rw [← (List.takeWhile_prefix _).eq_of_length whole] at first
        obtain ⟨i, place, found, body⟩ := mem_cuts (Place.mk slot.message) slot.sms.received first
        exact ⟨slot, List.mem_cons_self, by rw [place], by rw [place]; exact found,
          by rw [place]; exact body⟩
      · obtain ⟨s, hs, found⟩ := ih rest
        exact ⟨s, List.mem_cons_of_mem _ hs, found⟩
    · obtain ⟨i, place, found, body⟩ := mem_cuts (Place.mk slot.message) slot.sms.received h
      exact ⟨slot, List.mem_cons_self, by rw [place], by rw [place]; exact found,
        by rw [place]; exact body⟩

theorem headings_eq (lines : List (Place × Str)) :
    (lines.filterMap fun l => (cmglHeader l.2).map fun h => (l.1, h.scts)) =
      (cuts lines).map fun c => (c.1, c.2.1.scts) := by
  induction lines with
  | nil => rfl
  | cons l lines ih =>
    rw [List.filterMap_cons]
    cases h : cmglHeader l.2 <;> simp [cuts, h, ih]

/-- A poll reads nothing, or each message at its header. -/
theorem listed_cases {s : Station} {clock : Nat → Int} {reads : List Bytes}
    (brings : s.Brings reads) : s.listed clock reads = [] ∨ s.listed clock reads =
      (cuts ((s.slots.flatMap Slot.lines).takeWhile fun l => isClean l.2)).mapIdx fun i c =>
        ⟨c.1, c.2.1.scts, clock i, record (clock i) c.2.1 c.2.2⟩ := by
  unfold Station.listed
  split
  · exact .inl rfl
  · unfold listSms
    cases answer : command true (str "AT+CMGL=\"ALL\"") (str "OK") reads with
    | error e => exact .inl rfl
    | ok lines =>
      refine .inr ?_
      have parts := List.takeWhile_append_dropWhile (p := fun l : Place × Str => isClean l.2)
        (l := s.slots.flatMap Slot.lines)
      have headings : s.headings = (cuts ((s.slots.flatMap Slot.lines).takeWhile fun l =>
          isClean l.2)).map (fun c => (c.1, c.2.1.scts)) ++
          (cuts ((s.slots.flatMap Slot.lines).dropWhile fun l => isClean l.2)).map
            (fun c => (c.1, c.2.1.scts)) := by
        rw [← headings_eq, ← headings_eq, ← List.filterMap_append, parts]
        rfl
      rw [command_eq_ok brings answer]
      simp only [parseCmglBlock_eq, headings]
      refine List.ext_getElem (by simp) fun i hi hi' => ?_
      rw [List.length_mapIdx] at hi'
      simp [List.getElem?_append_left, hi']

/-- A message that a poll reads is a part of one in a slot. -/
theorem mem_listed {s : Station} {clock : Nat → Int} {reads : List Bytes} {r : Read}
    (brings : s.Brings reads) (h : r ∈ s.listed clock reads) : ∃ slot ∈ s.slots,
      r.place.message = slot.message ∧
      slot.sms.part r.place.line r.clock = some (r.scts, r.sms) := by
  rcases listed_cases brings with none | all
  · rw [none] at h
    exact absurd h List.not_mem_nil
  · rw [all] at h
    obtain ⟨i, hi, rfl⟩ := List.mem_mapIdx.mp h
    obtain ⟨slot, hslot, message, found, body⟩ := mem_cuts_slots (List.getElem_mem hi)
    refine ⟨slot, hslot, message, ?_⟩
    simp only [StoredSms.part, found, body, Option.map_some]

end Syrotp.Gsm
