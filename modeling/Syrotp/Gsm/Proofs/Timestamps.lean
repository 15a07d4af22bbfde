import Syrotp.Misc.Calendar
import Syrotp.Gsm.Proofs.Listing

/-!
# Service-centre timestamps

A timestamp is a date, a time of day and how far its zone is from UTC in quarters of an hour. The
parser matches the zone and drops it, so it answers the instant that the timestamp denotes exactly
where the zone is UTC; of a text that is no timestamp it makes the clock unless the text spells a
date and a time in the loose way that `int` and the pattern take.
-/

namespace Syrotp.Gsm

open Py Calendar

/-! ## What a timestamp denotes -/

def twoDigits (n : Nat) : Str := [Nat.digitChar (n / 10), Nat.digitChar (n % 10)]

/-- A timestamp of this century: what a clock of the zone shows, and whether and by how many
quarters of an hour it is behind UTC or ahead of it. -/
structure Timestamp where
  shown : DateTime
  year_mem : 2000 ≤ shown.year ∧ shown.year < 2100
  behind : Bool
  quarters : Nat
  quarters_lt : quarters < 100
  deriving DecidableEq, Repr

namespace Timestamp

def datePart (t : Timestamp) : Str :=
  ['/'].intercalate
    [twoDigits (t.shown.year - 2000), twoDigits t.shown.month, twoDigits t.shown.day]

def timePart (t : Timestamp) : Str :=
  twoDigits t.shown.hour ++ ':' :: (twoDigits t.shown.minute ++ ':' :: (twoDigits t.shown.second ++
    (if t.behind then '-' else '+') :: twoDigits t.quarters))

/-- `yy/mm/dd,hh:mm:ss±zz`. -/
def text (t : Timestamp) : Str := t.datePart ++ ',' :: t.timePart

/-- How far the zone is ahead of UTC, in milliseconds. -/
def offset (t : Timestamp) : Int :=
  (if t.behind then -(t.quarters : Int) else t.quarters) * 15 * 60 * 1000

/-- The milliseconds of UTC since the epoch. -/
def instant (t : Timestamp) : Int := t.shown.millis - t.offset

theorem offset_eq_zero_iff {t : Timestamp} : t.offset = 0 ↔ t.quarters = 0 := by
  unfold offset
  split <;> omega

end Timestamp

/-- The parser answers the instant of a timestamp, and the clock for any other text. -/
def ReadsAsDenoted (scts : Str) : Prop :=
  (∀ t : Timestamp, scts = t.text → ∀ clock, parseSctsToMs clock scts = t.instant) ∧
    ((∀ t : Timestamp, scts ≠ t.text) → ∀ clock, parseSctsToMs clock scts = clock)

/-- Two decimal digits for `n`. -/
def SpellsTwo (s : Str) (n : Nat) : Prop :=
  s.length = 2 ∧ (∀ c ∈ s, isDecimal c = true) ∧ intOfDigits s = n

/-- No zone, or a sign and one or two digits. -/
def IsZone (s : Str) : Prop :=
  s = [] ∨ ∃ sign digits, s = sign :: digits ∧ (sign = '+' ∨ sign = '-') ∧
    (digits.length = 1 ∨ digits.length = 2) ∧ ∀ c ∈ digits, isDecimal c = true

/-- The text spells what a clock shows, loosely: the date in three integers as `int` takes them, the
year less 2000, and the time of day in pairs of digits of any script, with or without a zone and
perhaps a newline at the end. -/
def SpellsLoosely (scts : Str) (shown : DateTime) : Prop :=
  ∃ year month day hour minute second zone newline : Str,
    scts = year ++ '/' :: (month ++ '/' :: (day ++ ',' :: (hour ++ ':' :: (minute ++
      ':' :: (second ++ (zone ++ newline)))))) ∧
    (1 ≤ shown.year ∧ shown.year ≤ 9999) ∧
    Spells year ((shown.year : Int) - 2000) ∧ Spells month shown.month ∧ Spells day shown.day ∧
    SpellsTwo hour shown.hour ∧ SpellsTwo minute shown.minute ∧ SpellsTwo second shown.second ∧
    IsZone zone ∧ (newline = [] ∨ newline = ['\n'])

/-! ## The calendar of the driver -/

theorem isLeapYear_iff (year : Nat) : isLeapYear year = true ↔ LeapYear year := by
  simp only [isLeapYear, LeapYear, Bool.and_eq_true, Bool.or_eq_true, beq_iff_eq, bne_iff_ne,
    Nat.dvd_iff_mod_eq_zero, ne_eq]

theorem daysInMonth_eq (year month : Nat) : daysInMonth year month = monthLength year month := by
  unfold daysInMonth monthLength
  simp only [isLeapYear_iff]
  split
  · next february =>
    subst february
    rfl
  · next other =>
    split
    · next short =>
      simp only [List.mem_cons, List.not_mem_nil, or_false] at short
      obtain rfl | rfl | rfl | rfl := short <;> rfl
    · next long =>
      simp only [List.mem_cons, List.not_mem_nil, or_false, not_or] at long
      obtain ⟨april, june, september, november⟩ := long
      split <;> first | contradiction | rfl

theorem toOrdinal_eq (d : Date) (positive : 1 ≤ d.year) :
    toOrdinal d.year d.month d.day = d.number := by
  obtain ⟨before, hyear⟩ := Nat.exists_eq_add_of_le' positive
  have years : ∑ year ∈ Finset.Ico 1 d.year, yearLength year =
      before * 365 + before / 4 - before / 100 + before / 400 := by
    rw [hyear, sum_yearLength]
  have months : ((List.range (d.month - 1)).map fun m => daysInMonth d.year (m + 1)).sum =
      ∑ month ∈ Finset.Ico 1 d.month, monthLength d.year month := by
    simp only [daysInMonth_eq]
    rw [Finset.sum_Ico_eq_sum_range]
    simp only [Nat.add_comm 1]
    rfl
  have last : d.year - 1 = before := by omega
  simp only [toOrdinal, Date.number, last, months, years]

theorem utcMillis_eq (t : DateTime) (range : 1 ≤ t.year ∧ t.year ≤ 9999) :
    utcMillis t.year t.month t.day t.hour t.minute t.second = some t.millis := by
  have month := t.month_mem
  have day := t.day_mem
  have hour := t.hour_lt
  have minute := t.minute_lt
  have second := t.second_lt
  unfold utcMillis
  rw [if_pos]
  · simp only [Int.toNat_natCast, toOrdinal_eq t.toDate range.1, DateTime.millis, epoch_number,
      Nat.cast_ofNat]
  · rw [Int.toNat_natCast, Int.toNat_natCast, daysInMonth_eq]
    omega

/-- `datetime` takes nothing but the dates and times of the calendar. -/
theorem exists_shown {year month day ms : Int} {hour minute second : Nat}
    (h : utcMillis year month day hour minute second = some ms) : ∃ shown : DateTime,
      (1 ≤ shown.year ∧ shown.year ≤ 9999) ∧ year = shown.year ∧ month = shown.month ∧
      day = shown.day ∧ hour = shown.hour ∧ minute = shown.minute ∧ second = shown.second := by
  unfold utcMillis at h
  obtain ⟨calendar, -⟩ := Option.ite_none_right_eq_some.mp h
  rw [daysInMonth_eq] at calendar
  obtain ⟨year₁, year₂, month₁, month₂, day₁, day₂, hour_lt, minute_lt, second_lt⟩ := calendar
  obtain ⟨y, rfl⟩ := Int.eq_ofNat_of_zero_le (by omega : 0 ≤ year)
  obtain ⟨m, rfl⟩ := Int.eq_ofNat_of_zero_le (by omega : 0 ≤ month)
  obtain ⟨d, rfl⟩ := Int.eq_ofNat_of_zero_le (by omega : 0 ≤ day)
  rw [Int.toNat_natCast, Int.toNat_natCast] at day₂
  exact ⟨⟨⟨y, m, d, by omega, by omega⟩, hour, minute, second, by omega, by omega, by omega⟩,
    by dsimp only; omega, rfl, rfl, rfl, rfl, rfl, rfl⟩

/-! ## What the parser takes -/

/-- A pair of digits on the way into the fields. -/
theorem SpellsTwo.exists_pair {s : Str} {n : Nat} (h : SpellsTwo s n) :
    ∃ c d, s = [c, d] ∧ isDecimal c = true ∧ isDecimal d = true ∧ intOfDigits [c, d] = n := by
  obtain ⟨two, digits, value⟩ := h
  match s, two with
  | [c, d], _ => exact ⟨c, d, rfl, digits c (by simp), digits d (by simp), value⟩

/-- What the pattern lets through as a zone. -/
theorem isZone_iff {zone : Str} : (match zone with
      | [] => true
      | sign :: digits => (sign == '+' || sign == '-') && 1 ≤ digits.length &&
          digits.length ≤ 2 && digits.all isDecimal) = true ↔ IsZone zone := by
  cases zone with
  | nil => simp [IsZone]
  | cons sign digits =>
    have one_or_two : (1 ≤ digits.length ∧ digits.length ≤ 2) ↔
        (digits.length = 1 ∨ digits.length = 2) := by omega
    simp [IsZone, and_assoc, ← one_or_two]

/-- A zone after a digit ends with a digit. -/
theorem IsZone.last_ne {zone : Str} {c : Char} (h : IsZone zone) (digit : isDecimal c = true) :
    (c :: zone).getLast? ≠ some '\n' := by
  intro last
  have plain : ∀ d ∈ c :: zone, d ≠ '\n' := by
    have other : ∀ {d : Char}, isDecimal d = true → d ≠ '\n' := by
      rintro d hd rfl
      exact absurd hd (by decide)
    obtain rfl | ⟨sign, digits, rfl, signed, _, decimal⟩ := h
    · simpa using other digit
    · simp only [List.forall_mem_cons]
      refine ⟨other digit, ?_, fun d hd => other (decimal d hd)⟩
      obtain rfl | rfl := signed <;> decide
  exact plain _ (List.mem_of_getLast? last) rfl

/-- The newline that `$` skips. -/
theorem chomp {s newline : Str} (last : s.getLast? ≠ some '\n')
    (ends : newline = [] ∨ newline = ['\n']) :
    (if (s ++ newline).getLast? = some '\n' then (s ++ newline).dropLast else s ++ newline) = s := by
  obtain rfl | rfl := ends
  · rw [List.append_nil, if_neg last]
  · rw [List.getLast?_concat, if_pos rfl, List.dropLast_concat]

/-- The time of day is matched with or without a newline after it. -/
theorem timeFields_eq_some_iff {s : Str} {hh mn ss : Int} : timeFields s = some (hh, mn, ss) ↔
    ∃ (hour minute second zone newline : Str) (h m sec : Nat),
      s = hour ++ ':' :: (minute ++ ':' :: (second ++ (zone ++ newline))) ∧
      SpellsTwo hour h ∧ SpellsTwo minute m ∧ SpellsTwo second sec ∧ IsZone zone ∧
      (newline = [] ∨ newline = ['\n']) ∧ hh = h ∧ mn = m ∧ ss = sec := by
  constructor
  · intro read
    unfold timeFields at read
    dsimp only at read
    obtain ⟨newline, whole, ends⟩ : ∃ newline,
        s = (if s.getLast? = some '\n' then s.dropLast else s) ++ newline ∧
          (newline = [] ∨ newline = ['\n']) := by
      by_cases last : s.getLast? = some '\n'
      · refine ⟨['\n'], ?_, .inr rfl⟩
        rw [if_pos last]
        exact (List.dropLast_append_getLast? _ last).symm
      · exact ⟨[], by rw [if_neg last, List.append_nil], .inl rfl⟩
    generalize (if s.getLast? = some '\n' then s.dropLast else s) = body at read whole
    subst whole
    split at read
    · next h₁ h₂ m₁ m₂ s₁ s₂ zone =>
      obtain ⟨⟨zoned, digits⟩, fields⟩ := Option.ite_none_right_eq_some.mp read
      simp only [Option.some.injEq, Prod.mk.injEq] at fields
      obtain ⟨rfl, rfl, rfl⟩ := fields
      simp only [List.all_cons, List.all_nil, Bool.and_true, Bool.and_eq_true] at digits
      obtain ⟨a, b, c, d, e, f⟩ := digits
      have pair : ∀ {x y : Char}, isDecimal x = true → isDecimal y = true →
          SpellsTwo [x, y] (intOfDigits [x, y]) := fun hx hy => ⟨rfl, by simp [hx, hy], rfl⟩
      exact ⟨[h₁, h₂], [m₁, m₂], [s₁, s₂], zone, newline, _, _, _, by simp, pair a b, pair c d,
        pair e f, isZone_iff.mp zoned, ends, rfl, rfl, rfl⟩
    · exact nomatch read
  · rintro ⟨hour, minute, second, zone, newline, h, m, sec, rfl, hour_two, minute_two, second_two,
      zoned, ends, rfl, rfl, rfl⟩
    obtain ⟨h₁, h₂, rfl, a, b, rfl⟩ := hour_two.exists_pair
    obtain ⟨m₁, m₂, rfl, c, d, rfl⟩ := minute_two.exists_pair
    obtain ⟨s₁, s₂, rfl, e, f, rfl⟩ := second_two.exists_pair
    have digits : [h₁, h₂, m₁, m₂, s₁, s₂].all isDecimal = true := by
      simp [a, b, c, d, e, f]
    have same : [h₁, h₂] ++ ':' :: ([m₁, m₂] ++ ':' :: ([s₁, s₂] ++ (zone ++ newline))) =
        h₁ :: h₂ :: ':' :: m₁ :: m₂ :: ':' :: s₁ :: s₂ :: zone ++ newline := by simp
    have last : (h₁ :: h₂ :: ':' :: m₁ :: m₂ :: ':' :: s₁ :: s₂ :: zone).getLast? ≠ some '\n' := by
      simpa only [List.getLast?_cons_cons] using zoned.last_ne f
    rw [same]
    unfold timeFields
    dsimp only
    rw [chomp last ends]
    exact if_pos ⟨isZone_iff.mpr zoned, digits⟩

/-- An integer has no separator of the date in it. -/
theorem separators_not_mem {s : Str} {n : Int} (h : Spells s n) : '/' ∉ s ∧ ',' ∉ s := by
  constructor <;> intro mem <;> have char := h.chars _ mem <;> revert char <;> decide

/-- `scts.split(",", 1)`. -/
theorem cut_at_comma {date : Str} (plain : ',' ∉ date) (time : Str) :
    (date ++ ',' :: time).takeWhile (· != ',') = date ∧
      (date ++ ',' :: time).dropWhile (· != ',') = ',' :: time :=
  takeWhile_append_stops (fun _ hc => bne_iff_ne.mpr fun same => plain (same ▸ hc)) (stops_cons rfl)

/-- A loose spelling is read as what it spells, whatever the clock. -/
theorem parseSctsToMs_spelled {scts : Str} {shown : DateTime} (h : SpellsLoosely scts shown)
    (clock : Int) : parseSctsToMs clock scts = shown.millis := by
  obtain ⟨year, month, day, hour, minute, second, zone, newline, rfl, range, yy, mm, dd, hh, mn, ss,
    zoned, ends⟩ := h
  have whole : year ++ '/' :: (month ++ '/' :: (day ++ ',' :: (hour ++ ':' :: (minute ++
      ':' :: (second ++ (zone ++ newline)))))) = ['/'].intercalate [year, month, day] ++
        ',' :: (hour ++ ':' :: (minute ++ ':' :: (second ++ (zone ++ newline)))) := by
    simp [List.intercalate]
  have plain : ',' ∉ ['/'].intercalate [year, month, day] := by
    simp [List.intercalate, (separators_not_mem yy).2, (separators_not_mem mm).2,
      (separators_not_mem dd).2]
  have fields : (['/'].intercalate [year, month, day]).splitOn '/' = [year, month, day] := by
    refine List.splitOn_intercalate _ ?_ (List.cons_ne_nil _ _)
    simp [(separators_not_mem yy).1, (separators_not_mem mm).1, (separators_not_mem dd).1]
  rw [whole]
  generalize ['/'].intercalate [year, month, day] = date at plain fields
  obtain ⟨before, after⟩ := cut_at_comma plain
    (hour ++ ':' :: (minute ++ ':' :: (second ++ (zone ++ newline))))
  have time := timeFields_eq_some_iff.mpr ⟨hour, minute, second, zone, newline, _, _, _, rfl, hh,
    mn, ss, zoned, ends, rfl, rfl, rfl⟩
  have century : (2000 : Int) + (shown.year - 2000) = shown.year := by omega
  unfold parseSctsToMs
  rw [if_pos (List.mem_append_right _ List.mem_cons_self)]
  simp only [before, after, List.tail_cons, time, fields, List.map_cons, List.map_nil,
    pyInt_eq_some_iff.mpr yy, pyInt_eq_some_iff.mpr mm, pyInt_eq_some_iff.mpr dd, century,
    utcMillis_eq shown range, Option.getD_some]

/-- Of any other text the parser makes the clock. -/
theorem parseSctsToMs_other {scts : Str} (h : ¬∃ shown, SpellsLoosely scts shown) (clock : Int) :
    parseSctsToMs clock scts = clock := by
  unfold parseSctsToMs
  by_cases comma : ',' ∈ scts
  · rw [if_pos comma]
    obtain ⟨before, after, rfl, plain⟩ := List.eq_append_cons_of_mem comma
    obtain ⟨taken, dropped⟩ := cut_at_comma plain after
    simp only [taken, dropped, List.tail_cons]
    split
    · next hh mn ss yy mm dd time date =>
      cases out : utcMillis (2000 + yy) mm dd hh mn ss with
      | none => rfl
      | some ms =>
        obtain ⟨hour, minute, second, zone, newline, _, _, _, rfl, hour_two, minute_two, second_two,
          zoned, ends, rfl, rfl, rfl⟩ := timeFields_eq_some_iff.mp time
        obtain ⟨year, _, parts, hyear, date⟩ := List.map_eq_cons_iff.mp date
        obtain ⟨month, _, rfl, hmonth, date⟩ := List.map_eq_cons_iff.mp date
        obtain ⟨day, _, rfl, hday, date⟩ := List.map_eq_cons_iff.mp date
        obtain rfl := List.map_eq_nil_iff.mp date
        have joined : ['/'].intercalate (before.splitOn '/') = before :=
          List.intercalate_splitOn '/'
        rw [parts] at joined
        obtain ⟨shown, range, year_eq, rfl, rfl, rfl, rfl, rfl⟩ := exists_shown out
        refine absurd ⟨shown, year, month, day, hour, minute, second, zone, newline, ?_, range, ?_,
          pyInt_eq_some_iff.mp hmonth, pyInt_eq_some_iff.mp hday, hour_two, minute_two, second_two,
          zoned, ends⟩ h
        · rw [← joined]
          simp [List.intercalate]
        · have century : (shown.year : Int) - 2000 = yy := by omega
          rw [century]
          exact pyInt_eq_some_iff.mp hyear
    · rfl
  · rw [if_neg comma]
    rfl

/-! ## The text of a timestamp -/

theorem spellsTwo_twoDigits {n : Nat} (h : n < 100) : SpellsTwo (twoDigits n) n := by
  have tens : n / 10 < 10 := by omega
  have ones : n % 10 < 10 := by omega
  have digits : ∀ c ∈ twoDigits n, c.isDigit = true := by
    simp [twoDigits, Nat.isDigit_digitChar, tens, ones]
  refine ⟨rfl, fun c hc => isDecimal_of_isDigit (digits c hc), ?_⟩
  rw [intOfDigits_eq digits, twoDigits, Nat.ofDigitChars_cons_digitChar_of_lt_ten tens,
    Nat.ofDigitChars_cons_digitChar_of_lt_ten ones, Nat.ofDigitChars_nil]
  omega

/-- Two digits are an integer as well. -/
theorem SpellsTwo.spells {s : Str} {n : Nat} (h : SpellsTwo s n) : Spells s n := by
  obtain ⟨two, digits, rfl⟩ := h
  have filled : s ≠ [] := fun empty => by simp [empty] at two
  refine ⟨[], [], [], [s], false, by simp, by simp, by simp, .inl rfl, List.cons_ne_nil _ _, ?_, ?_,
    by simp⟩
  · simpa using ⟨filled, digits⟩
  · simp [two, maxStrDigits]

namespace Timestamp

variable (t : Timestamp)

theorem day_le : t.shown.day ≤ 31 := by
  refine t.shown.day_mem.2.trans ?_
  unfold monthLength
  split
  · split <;> decide
  all_goals decide

/-- The fields have two digits each. -/
theorem fields_lt : t.shown.year - 2000 < 100 ∧ t.shown.month < 100 ∧ t.shown.day < 100 ∧
    t.shown.hour < 100 ∧ t.shown.minute < 100 ∧ t.shown.second < 100 := by
  have year := t.year_mem
  have month := t.shown.month_mem
  have day := t.day_le
  have hour := t.shown.hour_lt
  have minute := t.shown.minute_lt
  have second := t.shown.second_lt
  omega

/-- A timestamp is a loose spelling of what the clock of its zone shows. -/
theorem spellsLoosely : SpellsLoosely t.text t.shown := by
  obtain ⟨year, month, day, hour, minute, second⟩ := t.fields_lt
  obtain ⟨two, digits, _⟩ := spellsTwo_twoDigits t.quarters_lt
  have century : ((t.shown.year - 2000 : Nat) : Int) = t.shown.year - 2000 :=
    Int.ofNat_sub t.year_mem.1
  have range := t.year_mem
  refine ⟨twoDigits (t.shown.year - 2000), twoDigits t.shown.month, twoDigits t.shown.day,
    twoDigits t.shown.hour, twoDigits t.shown.minute, twoDigits t.shown.second,
    (if t.behind then '-' else '+') :: twoDigits t.quarters, [], ?_, by omega, ?_,
    (spellsTwo_twoDigits month).spells, (spellsTwo_twoDigits day).spells,
    spellsTwo_twoDigits hour, spellsTwo_twoDigits minute, spellsTwo_twoDigits second,
    .inr ⟨_, _, rfl, ?_, .inr two, digits⟩, .inl rfl⟩
  · simp [text, datePart, timePart, List.intercalate]
  · rw [← century]
    exact (spellsTwo_twoDigits year).spells
  · cases t.behind
    · exact .inl rfl
    · exact .inr rfl

/-- The text of a timestamp says how many quarters its zone has. -/
theorem quarters_of_text {t u : Timestamp} (h : t.text = u.text) : t.quarters = u.quarters := by
  have read : ∀ t : Timestamp, intOfDigits (t.text.drop 18) = t.quarters :=
    fun t => (spellsTwo_twoDigits t.quarters_lt).2.2
  rw [← read t, h, read u]

end Timestamp

/-! ## The instants that the parser answers -/

/-- A text is read as what it denotes exactly when it is a timestamp of UTC or no loose spelling of
a date and a time. -/
theorem readsAsDenoted_iff (scts : Str) : ReadsAsDenoted scts ↔
    (∃ t : Timestamp, scts = t.text ∧ t.quarters = 0) ∨ ¬∃ shown, SpellsLoosely scts shown := by
  constructor
  · rintro ⟨denoted, other⟩
    by_cases valid : ∃ t : Timestamp, scts = t.text
    · obtain ⟨t, rfl⟩ := valid
      have same := denoted t rfl 0
      rw [parseSctsToMs_spelled t.spellsLoosely, Timestamp.instant] at same
      exact .inl ⟨t, rfl, Timestamp.offset_eq_zero_iff.mp (by omega)⟩
    · refine .inr fun ⟨shown, spelled⟩ => ?_
      have fallback := other (fun t same => valid ⟨t, same⟩) (shown.millis + 1)
      rw [parseSctsToMs_spelled spelled] at fallback
      omega
  · rintro (⟨t, rfl, utc⟩ | free)
    · refine ⟨fun u same clock => ?_, fun other => absurd rfl (other t)⟩
      have offset : u.offset = 0 :=
        Timestamp.offset_eq_zero_iff.mpr ((Timestamp.quarters_of_text same).symm.trans utc)
      rw [same, parseSctsToMs_spelled u.spellsLoosely, Timestamp.instant, offset, Int.sub_zero]
    · refine ⟨fun t same => absurd ⟨_, t.spellsLoosely⟩ (same ▸ free), fun _ clock => ?_⟩
      exact parseSctsToMs_other free clock

/-- Three hours ahead of UTC, in the afternoon of the second of May of 2026. -/
def damascus : Timestamp :=
  { shown := ⟨⟨2026, 5, 2, by decide, by decide⟩, 14, 33, 11, by decide, by decide, by decide⟩
    year_mem := by decide
    behind := false
    quarters := 12
    quarters_lt := by decide }

example : damascus.text = str "26/05/02,14:33:11+12" := by decide

/-- The parser is three hours late. -/
theorem damascus_is_late : ¬ReadsAsDenoted damascus.text ∧
    parseSctsToMs 0 damascus.text = damascus.instant + 3 * 60 * 60 * 1000 := by
  have offset : damascus.offset = 3 * 60 * 60 * 1000 := by decide
  have late : parseSctsToMs 0 damascus.text = damascus.instant + 3 * 60 * 60 * 1000 := by
    rw [parseSctsToMs_spelled damascus.spellsLoosely, Timestamp.instant, offset]
    omega
  refine ⟨fun denoted => ?_, late⟩
  rw [denoted.1 damascus rfl 0] at late
  omega

end Syrotp.Gsm
