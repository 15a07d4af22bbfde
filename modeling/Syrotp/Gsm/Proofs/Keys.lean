import Syrotp.Gsm.Proofs.Provenance

/-!
# The keys of the GSM gateway

A key spells the received time, the slot and the end of the sender's number, and nothing else of a
message; the received time is the clock's where the timestamp cannot be read. So the keys of a run
are faithful exactly when these three tell each message from all else that was read, a line of a
body that looks like a header included, and no message with an unreadable timestamp was read at two
readings of the clock.
-/

namespace Syrotp.Gsm

open Py

variable {cfg : GatewayConfig}

/-! ## What a key spells -/

/-- Text is cut at the first separator in one way. -/
theorem cut_at {sep : Char} {a b a' b' : Str} (h : sep ∉ a) (h' : sep ∉ a')
    (same : a ++ sep :: b = a' ++ sep :: b') : a = a' ∧ b = b' := by
  have cut : ∀ {a b : Str}, sep ∉ a → (a ++ sep :: b).takeWhile (· != sep) = a := by
    intro a b h
    have all : ∀ c ∈ a, (c != sep) = true := fun c hc => bne_iff_ne.mpr fun e => h (e ▸ hc)
    exact (takeWhile_append_stops all (stops_cons (by simp))).1
  have head : a = a' := by rw [← cut (b := b) h, same, cut h']
  subst head
  exact ⟨rfl, (List.cons.inj (List.append_cancel_left same)).2⟩

theorem digits_injective {m n : Nat} (same : Nat.toDigits 10 m = Nat.toDigits 10 n) : m = n := by
  have read := Nat.ofDigitChars_ten_toDigits (n := m)
  rw [same, Nat.ofDigitChars_ten_toDigits] at read
  exact read.symm

theorem not_mem_digits {c : Char} (h : c.isDigit = false) (n : Nat) : c ∉ Nat.toDigits 10 n := by
  intro hc
  rw [Nat.isDigit_of_mem_toDigits (by decide) (by decide) hc] at h
  exact nomatch h

theorem colon_not_mem_pyStr (n : Int) : ':' ∉ pyStr n := by
  cases n with
  | ofNat n => exact not_mem_digits rfl n
  | negSucc n =>
    intro hc
    rcases List.mem_cons.mp hc with same | digit
    · exact absurd same (by decide)
    · exact not_mem_digits rfl _ digit

theorem pyStr_injective {m n : Int} (same : pyStr m = pyStr n) : m = n := by
  have sign : ∀ m n, Nat.toDigits 10 m ≠ '-' :: Nat.toDigits 10 n := fun m n e =>
    not_mem_digits (c := '-') rfl m (e ▸ List.mem_cons_self)
  cases m with
  | ofNat m =>
    cases n with
    | ofNat n => exact congrArg Int.ofNat (digits_injective same)
    | negSucc n => exact absurd same (sign m _)
  | negSucc m =>
    cases n with
    | ofNat n => exact absurd same.symm (sign n _)
    | negSucc n =>
      exact congrArg Int.negSucc (Nat.succ.inj (digits_injective (List.cons.inj same).2))

/-- Two messages have one key if they agree in the three things it spells. -/
theorem idempotencyKey_eq_iff {a b : IncomingSms} :
    idempotencyKey cfg a = idempotencyKey cfg b ↔ a.receivedAtMs = b.receivedAtMs ∧
      a.index = b.index ∧ lastChars 12 a.sender = lastChars 12 b.sender := by
  constructor
  · intro same
    have rest := (List.cons.inj (List.append_cancel_left (List.append_cancel_left same))).2
    obtain ⟨time, rest⟩ := cut_at (colon_not_mem_pyStr _) (colon_not_mem_pyStr _) rest
    obtain ⟨index, sender⟩ := cut_at (not_mem_digits rfl _) (not_mem_digits rfl _) rest
    exact ⟨pyStr_injective time, digits_injective index, sender⟩
  · rintro ⟨time, index, sender⟩
    unfold idempotencyKey
    rw [time, index, sender]

/-- The timestamp can be read: the clock does not matter. -/
def readable (scts : Str) : Bool := parseSctsToMs 0 scts = parseSctsToMs 1 scts

/-- Read at two readings of the clock, a timestamp gives one time if it is readable. -/
theorem parseSctsToMs_eq_iff {scts : Str} {c c' : Int} :
    parseSctsToMs c scts = parseSctsToMs c' scts ↔ readable scts = true ∨ c = c' := by
  have fallback : ∃ o : Option Int, ∀ c, parseSctsToMs c scts = o.getD c := ⟨_, fun _ => rfl⟩
  obtain ⟨o, ho⟩ := fallback
  rw [readable, decide_eq_true_eq, ho, ho, ho, ho]
  cases o with
  | none =>
    simp only [Option.getD_none]
    omega
  | some ms => simp only [Option.getD_some, true_or]

/-! ## The messages of a run -/

namespace Read

def key (cfg : GatewayConfig) (r : Read) : Str := idempotencyKey cfg r.sms

/-- The two reads are at one line and at the same received time, or at two lines that differ in the
slot, the last 12 characters of the sender or the received time. -/
def Apart (r r' : Read) : Prop :=
  if r.place = r'.place then readable r.scts = true ∨ r.clock = r'.clock
  else r.sms.index ≠ r'.sms.index ∨ lastChars 12 r.sms.sender ≠ lastChars 12 r'.sms.sender ∨
    parseSctsToMs r.clock r.scts ≠ parseSctsToMs r'.clock r'.scts

end Read

instance (r r' : Read) : Decidable (r.Apart r') :=
  if h : r.place = r'.place then
    decidable_of_iff (readable r.scts = true ∨ r.clock = r'.clock) (by rw [Read.Apart, if_pos h])
  else
    decidable_of_iff (r.sms.index ≠ r'.sms.index ∨
      lastChars 12 r.sms.sender ≠ lastChars 12 r'.sms.sender ∨
      parseSctsToMs r.clock r.scts ≠ parseSctsToMs r'.clock r'.scts) (by
        rw [Read.Apart, if_neg h])

/-- The keys of a run are faithful: one key for each message on the modem, which nothing else that
is read has, and what the queue or the server takes for a duplicate of it is there already. -/
structure Faithful (cfg : GatewayConfig) (log : List (Station × Action)) : Prop where
  distinct : ∀ r ∈ reads log, r.IsPrinted → ∀ r' ∈ reads log, r.key cfg = r'.key cfg →
    r.place = r'.place
  stable : ∀ r ∈ reads log, r.IsPrinted → ∀ r' ∈ reads log, r.place = r'.place →
    r.key cfg = r'.key cfg
  queued : ∀ e ∈ log, ∀ now r rest, e.2 = .add now → e.1.reading = r :: rest → r.IsPrinted →
    (e.1.queue.add now (payload cfg r.sms)).1 = false →
      ∃ row ∈ e.1.queue.rows, row.toPayload = payload cfg r.sms
  stored : ∀ e ∈ log, ∀ now item rest, e.2 = .upload .answered now → e.1.sending = item :: rest →
    (∃ r ∈ reads log, r.IsPrinted ∧ item.toPayload = payload cfg r.sms) →
    answerStatus e.1.server item.toPayload = 409 → item.toPayload ∈ e.1.server

/-- What is known of a station after a log: the arrivals say what each number stands for, whatever
was read is a part of one of them, and everything queued, posted or stored was read. -/
structure Station.Inv (cfg : GatewayConfig) (log : List (Station × Action)) (s : Station) :
    Prop where
  slots : ∀ slot ∈ s.slots, s.arrivals[slot.message]? = some slot.sms
  read : ∀ r ∈ reads log, ∃ m, s.arrivals[r.place.message]? = some m ∧
    m.part r.place.line r.clock = some (r.scts, r.sms)
  reading : ∀ r ∈ s.reading, r ∈ reads log
  queue : ∀ row ∈ s.queue.rows, ∃ r ∈ reads log, row.toPayload = payload cfg r.sms
  sending : ∀ row ∈ s.sending, ∃ r ∈ reads log, row.toPayload = payload cfg r.sms
  server : ∀ p ∈ s.server, ∃ r ∈ reads log, p = payload cfg r.sms

theorem mem_add {q : InboundQueue} {now : Int} {p : Payload} {row : QueueItem}
    (h : row ∈ (q.add now p).2.rows) : row ∈ q.rows ∨ row.toPayload = p := by
  unfold InboundQueue.add at h
  split at h
  · exact .inl h
  · rcases List.mem_append.mp h with old | new
    · exact .inl old
    · exact .inr (List.mem_singleton.mp new ▸ rfl)

theorem mem_add_of_mem {q : InboundQueue} {now : Int} {p : Payload} {row : QueueItem}
    (h : row ∈ q.rows) : row ∈ (q.add now p).2.rows := by
  unfold InboundQueue.add
  split
  · exact h
  · exact List.mem_append_left _ h

theorem mem_bumpAttempts {q : InboundQueue} {now : Int} {itemId backoff : Nat} {row : QueueItem}
    (h : row ∈ (q.bumpAttempts now itemId backoff).rows) :
    ∃ old ∈ q.rows, row.toPayload = old.toPayload := by
  obtain ⟨old, hold, rfl⟩ := mem_updateWhere.mp h
  refine ⟨old, hold, ?_⟩
  split <;> rfl

theorem mem_handleUploadResult {q : InboundQueue} {now : Int} {itemId attempts status : Nat}
    {row : QueueItem} (h : row ∈ (handleUploadResult q now itemId attempts status).1.rows) :
    ∃ old ∈ q.rows, row.toPayload = old.toPayload := by
  have removed : row ∈ (q.remove itemId).rows → ∃ old ∈ q.rows, row.toPayload = old.toPayload :=
    fun h => ⟨row, (List.mem_filter.mp h).1, rfl⟩
  unfold handleUploadResult at h
  split at h
  · exact removed h
  · split at h
    · exact ⟨row, h, rfl⟩
    · split at h
      · split at h
        · exact removed h
        · exact mem_bumpAttempts h
      · exact mem_bumpAttempts h

theorem mem_store {server : List Payload} {p x : Payload} (h : x ∈ store server p) :
    x ∈ server ∨ x = p := by
  unfold store at h
  split at h
  · exact .inl h
  · exact (List.mem_append.mp h).imp_right List.mem_singleton.mp

theorem reads_append (log : List (Station × Action)) (e : Station × Action) :
    reads (log ++ [e]) = reads log ++ readsAt e := by
  rw [reads, List.flatMap_append, List.flatMap_singleton]
  rfl

/-- The rows of a table come from messages read. -/
abbrev FromReads (cfg : GatewayConfig) (log : List (Station × Action)) (p : Payload) : Prop :=
  ∃ r ∈ reads log, p = payload cfg r.sms

theorem FromReads.later {log : List (Station × Action)} {p : Payload} (h : FromReads cfg log p)
    (e : Station × Action) : FromReads cfg (log ++ [e]) p := by
  obtain ⟨r, hr, rfl⟩ := h
  exact ⟨r, by rw [reads_append]; exact List.mem_append_left _ hr, rfl⟩

/-- What an upload leaves in the queue and on the server was there or is the posted item. -/
theorem mem_post {s : Station} {item : QueueItem} {rest : List QueueItem} {now : Int}
    (reply : Reply) : (s.post item rest now reply).slots = s.slots ∧
      (s.post item rest now reply).arrivals = s.arrivals ∧
      (s.post item rest now reply).reading = s.reading ∧
      (s.post item rest now reply).sending.Sublist rest ∧
      (∀ row ∈ (s.post item rest now reply).queue.rows,
        ∃ old ∈ s.queue.rows, row.toPayload = old.toPayload) ∧
      ∀ p ∈ (s.post item rest now reply).server, p ∈ s.server ∨ p = item.toPayload := by
  have maybe : ∀ stored : Bool, ∀ p ∈ (if stored then store s.server item.toPayload else s.server),
      p ∈ s.server ∨ p = item.toPayload := by
    intro stored p hp
    cases stored with
    | true => exact mem_store hp
    | false => exact .inl hp
  cases reply with
  | answered =>
    exact ⟨rfl, rfl, rfl, .refl _, fun row => mem_handleUploadResult, fun p => mem_store⟩
  | refused status stored =>
    exact ⟨rfl, rfl, rfl, .refl _, fun row => mem_handleUploadResult, maybe stored⟩
  | lost stored => exact ⟨rfl, rfl, rfl, .refl _, fun row => mem_bumpAttempts, maybe stored⟩
  | unheard stored =>
    exact ⟨rfl, rfl, rfl, List.nil_sublist _, fun row hrow => ⟨row, hrow, rfl⟩, maybe stored⟩

theorem Station.Inv.step {log : List (Station × Action)} {s t : Station} {a : Action}
    (h : s.Inv cfg log) (hs : s.step cfg a = some t) : t.Inv cfg (log ++ [(s, a)]) := by
  have queue : ∀ row ∈ s.queue.rows, FromReads cfg (log ++ [(s, a)]) row.toPayload :=
    fun row hrow => FromReads.later (h.queue row hrow) _
  have sending : ∀ row ∈ s.sending, FromReads cfg (log ++ [(s, a)]) row.toPayload :=
    fun row hrow => FromReads.later (h.sending row hrow) _
  have server : ∀ p ∈ s.server, FromReads cfg (log ++ [(s, a)]) p :=
    fun p hp => FromReads.later (h.server p hp) _
  have old : ∀ r ∈ reads log, r ∈ reads (log ++ [(s, a)]) := by
    intro r hr
    rw [reads_append]
    exact List.mem_append_left _ hr
  have reading : ∀ r ∈ s.reading, r ∈ reads (log ++ [(s, a)]) :=
    fun r hr => old r (h.reading r hr)
  have idle : readsAt (s, a) = [] → ∀ r ∈ reads (log ++ [(s, a)]), ∃ m,
      s.arrivals[r.place.message]? = some m ∧
        m.part r.place.line r.clock = some (r.scts, r.sms) := by
    intro none r hr
    rw [reads_append, none, List.append_nil] at hr
    exact h.read r hr
  cases Station.step_cases hs with
  | @arrived sms _ =>
    have grown : ∀ {i : Nat} {m : StoredSms}, s.arrivals[i]? = some m →
        (s.arrivals ++ [sms])[i]? = some m := by
      intro i m hm
      rw [List.getElem?_append_left (List.getElem?_eq_some_iff.mp hm).1]
      exact hm
    refine ⟨fun slot hslot => ?_, fun r hr => ?_, reading, queue, sending, server⟩
    rotate_left
    · obtain ⟨m, arrived, part⟩ := idle rfl r hr
      exact ⟨m, grown arrived, part⟩
    rcases List.mem_append.mp hslot with earlier | new
    · exact grown (h.slots slot earlier)
    · obtain rfl := List.mem_singleton.mp new
      exact List.getElem?_concat_length
  | polled _ brings =>
    refine ⟨h.slots, fun r hr => ?_, fun r hr => ?_, queue, sending, server⟩
    · rw [reads_append] at hr
      rcases List.mem_append.mp hr with earlier | new
      · exact h.read r earlier
      · obtain ⟨slot, hslot, message, part⟩ := mem_listed brings new
        exact ⟨slot.sms, message ▸ h.slots slot hslot, part⟩
    · rw [reads_append]
      exact List.mem_append_right _ hr
  | @added now r rest first _ =>
    refine ⟨h.slots, idle rfl, reading, fun row hrow => ?_, sending, server⟩
    rcases mem_add hrow with earlier | new
    · exact queue row earlier
    · exact ⟨r, reading r (first ▸ List.mem_cons_self), new⟩
  | @deleted effective r rest first _ =>
    refine ⟨fun slot hslot => ?_, idle rfl,
      fun r hr => reading r (first ▸ List.mem_cons_of_mem _ hr), queue, sending, server⟩
    cases effective with
    | true => exact h.slots slot (List.mem_filter.mp hslot).1
    | false => exact h.slots slot hslot
  | readerFailed => exact ⟨h.slots, idle rfl, List.forall_mem_nil _, queue, sending, server⟩
  | drained _ _ =>
    exact ⟨h.slots, idle rfl, reading, queue,
      fun row hrow => queue row (List.mem_filter.mp (List.mem_of_mem_take hrow)).1, server⟩
  | @uploaded reply now item rest first _ =>
    obtain ⟨slots, arrivals, same, left, rows, posted⟩ := mem_post (s := s) reply
    refine ⟨?_, ?_, ?_, fun row hrow => ?_, ?_, fun p hp => ?_⟩
    · rw [slots, arrivals]
      exact h.slots
    · rw [arrivals]
      exact idle rfl
    · rw [same]
      exact reading
    · obtain ⟨before, hbefore, same⟩ := rows row hrow
      rw [same]
      exact queue before hbefore
    · exact fun row hrow => sending row (first ▸ List.mem_cons_of_mem _ (left.subset hrow))
    · rcases posted p hp with earlier | rfl
      · exact server p earlier
      · exact sending item (first ▸ List.mem_cons_self)
  | workerFailed => exact ⟨h.slots, idle rfl, reading, queue, List.forall_mem_nil _, server⟩
  | restarted =>
    exact ⟨h.slots, idle rfl, List.forall_mem_nil _, queue, List.forall_mem_nil _, server⟩

theorem StationRun.inv {log : List (Station × Action)} {s : Station} (run : StationRun cfg log s) :
    s.Inv cfg log := by
  induction run with
  | start =>
    exact ⟨(fun _ h => nomatch h), (fun _ h => nomatch h), (fun _ h => nomatch h),
      (fun _ h => nomatch h), (fun _ h => nomatch h), (fun _ h => nomatch h)⟩
  | next _ hs ih => exact ih.step hs

/-! ## Faithful keys -/

/-- A part of a message at one clock and at another. -/
theorem part_at {m : StoredSms} {i : Nat} {clock clock' : Int} {x x' : Str × IncomingSms}
    (h : m.part i clock = some x) (h' : m.part i clock' = some x') :
    x.2.receivedAtMs = parseSctsToMs clock x.1 ∧ x'.2 = { x.2 with
      receivedAtMs := parseSctsToMs clock' x.1 } ∧ x'.1 = x.1 := by
  obtain ⟨header, found, rfl⟩ := Option.map_eq_some_iff.mp h
  obtain ⟨header', found', rfl⟩ := Option.map_eq_some_iff.mp h'
  obtain rfl := Option.some.inj (found.symm.trans found')
  exact ⟨rfl, rfl, rfl⟩

section Apart

variable {log : List (Station × Action)} {s : Station} {r r' : Read}

theorem Station.Inv.key_eq_iff (inv : s.Inv cfg log) (hr : r ∈ reads log) (hr' : r' ∈ reads log) :
    r.key cfg = r'.key cfg ↔ parseSctsToMs r.clock r.scts = parseSctsToMs r'.clock r'.scts ∧
      r.sms.index = r'.sms.index ∧ lastChars 12 r.sms.sender = lastChars 12 r'.sms.sender := by
  obtain ⟨_, _, part⟩ := inv.read r hr
  obtain ⟨_, _, part'⟩ := inv.read r' hr'
  rw [← (part_at part part).1, ← (part_at part' part').1]
  exact idempotencyKey_eq_iff

/-- Two reads at one line differ in the received time only. -/
theorem Station.Inv.same_line (inv : s.Inv cfg log) (hr : r ∈ reads log) (hr' : r' ∈ reads log)
    (same : r.place = r'.place) : r'.scts = r.scts ∧
      r'.sms = { r.sms with receivedAtMs := parseSctsToMs r'.clock r.scts } := by
  obtain ⟨m, arrived, part⟩ := inv.read r hr
  obtain ⟨m', arrived', part'⟩ := inv.read r' hr'
  rw [← same, arrived] at arrived'
  obtain rfl := Option.some.inj arrived'
  rw [← same] at part'
  obtain ⟨_, sms, scts⟩ := part_at part part'
  exact ⟨scts, sms⟩

/-- Reads at one line have one key if the timestamp is readable or the clock the same. -/
theorem Station.Inv.key_iff_readable (inv : s.Inv cfg log) (hr : r ∈ reads log)
    (hr' : r' ∈ reads log) (same : r.place = r'.place) :
    r.key cfg = r'.key cfg ↔ readable r.scts = true ∨ r.clock = r'.clock := by
  obtain ⟨scts, sms⟩ := inv.same_line hr hr' same
  rw [inv.key_eq_iff hr hr', scts, sms, parseSctsToMs_eq_iff]
  simp

/-- Where keys are faithful, each message on the modem is apart from all that is read. -/
theorem apart_of_faithful (inv : s.Inv cfg log) (h : Faithful cfg log) :
    ∀ r ∈ reads log, r.IsPrinted → ∀ r' ∈ reads log, r.Apart r' := by
  intro r hr printed r' hr'
  unfold Read.Apart
  split
  · next same =>
    exact (inv.key_iff_readable hr hr' same).mp (h.stable r hr printed r' hr' same)
  · next other =>
    by_contra alike
    simp only [not_or, ne_eq, not_not] at alike
    obtain ⟨index, sender, time⟩ := alike
    exact other (h.distinct r hr printed r' hr' ((inv.key_eq_iff hr hr').mpr ⟨time, index, sender⟩))

/-- Reads that are apart and have one key are at one line. -/
theorem place_eq_of_apart (inv : s.Inv cfg log) (hr : r ∈ reads log) (hr' : r' ∈ reads log)
    (apart : r.Apart r') (key : r.key cfg = r'.key cfg) : r.place = r'.place := by
  obtain ⟨time, index, sender⟩ := (inv.key_eq_iff hr hr').mp key
  by_contra other
  rw [Read.Apart, if_neg other] at apart
  rcases apart with slot | tail | instant
  · exact slot index
  · exact tail sender
  · exact instant time

/-- So they are queued and posted alike. -/
theorem payload_eq_of_apart (inv : s.Inv cfg log) (hr : r ∈ reads log) (hr' : r' ∈ reads log)
    (apart : r.Apart r') (key : r.key cfg = r'.key cfg) :
    payload cfg r.sms = payload cfg r'.sms := by
  have same := place_eq_of_apart inv hr hr' apart key
  obtain ⟨_, _, part⟩ := inv.read r hr
  have time := ((inv.key_eq_iff hr hr').mp key).1
  obtain ⟨scts, sms⟩ := inv.same_line hr hr' same
  rw [scts, ← (part_at part part).1] at time
  rw [sms, ← time]

theorem reads_earlier {log₁ log₂ : List (Station × Action)} {e : Station × Action}
    (split : log = log₁ ++ e :: log₂) (hr : r ∈ reads log₁) : r ∈ reads log := by
  rw [split, reads, List.flatMap_append]
  exact List.mem_append_left _ hr

/-- Where each message on the modem is apart from all that is read, keys are faithful. -/
theorem faithful_of_apart (run : StationRun cfg log s)
    (apart : ∀ r ∈ reads log, r.IsPrinted → ∀ r' ∈ reads log, r.Apart r') :
    Faithful cfg log := by
  have inv := run.inv
  refine ⟨fun r hr printed r' hr' key =>
    place_eq_of_apart inv hr hr' (apart r hr printed r' hr') key, ?_, ?_, ?_⟩
  · intro r hr printed r' hr' same
    have one := apart r hr printed r' hr'
    rw [Read.Apart, if_pos same] at one
    exact (inv.key_iff_readable hr hr' same).mpr one
  · intro e he now r rest _ reading printed refused
    obtain ⟨log₁, _, log₂, split, before, _, _⟩ := run.split he
    have known := StationRun.inv before
    unfold InboundQueue.add at refused
    split at refused
    · next taken =>
      obtain ⟨row, hrow, key⟩ := hasKey_iff.mp taken
      obtain ⟨r', hr', from_read⟩ := known.queue row hrow
      have hr := reads_earlier split (known.reading r (reading ▸ List.mem_cons_self))
      have hr' := reads_earlier split hr'
      have key' : r.key cfg = r'.key cfg :=
        key.symm.trans (congrArg Payload.idempotencyKey from_read)
      refine ⟨row, hrow, from_read.trans ?_⟩
      exact (payload_eq_of_apart inv hr hr' (apart r hr printed r' hr') key').symm
    · exact nomatch refused
  · rintro e he now item rest _ sending ⟨r, hr, printed, posted⟩ conflict
    obtain ⟨log₁, _, log₂, split, before, _, _⟩ := run.split he
    have known := StationRun.inv before
    unfold answerStatus at conflict
    split at conflict
    · next taken =>
      obtain ⟨p, hp, key⟩ := hasKey_iff.mp taken
      obtain ⟨r', hr', rfl⟩ := known.server p hp
      have hr' := reads_earlier split hr'
      have key' : r.key cfg = r'.key cfg :=
        (key.trans (congrArg Payload.idempotencyKey posted)).symm
      rw [posted, payload_eq_of_apart inv hr hr' (apart r hr printed r' hr') key']
      exact hp
    · exact absurd conflict (by decide)

end Apart

/-- The keys of a run are faithful exactly when each message on the modem is apart from all that is
read. -/
theorem keys_faithful {log : List (Station × Action)} {s : Station} (run : StationRun cfg log s) :
    Faithful cfg log ↔ ∀ r ∈ reads log, r.IsPrinted → ∀ r' ∈ reads log, r.Apart r' :=
  ⟨apart_of_faithful run.inv, faithful_of_apart run⟩

namespace KeysScript

def config : GatewayConfig := ⟨str "rcv_1", str "+963110000000", none⟩

/-- A message in slot 1. -/
def sms (scts body : Str) (h : Quotable scts ∧ scts ≠ []) : StoredSms :=
  { forgery with scts := scts, body := body, scts_quotable := h.1, scts_nonempty := h.2 }

/-- Each message arrives and is read; it cannot be deleted at once, is read again, and is gone
before the next one arrives. -/
def oneByOne (messages : List StoredSms) : List Action :=
  messages.flatMap fun m =>
    [.arrive m, .poll (fun _ => 0) (answered [m]), .add 0, .delete false,
      .poll (fun _ => 1) (answered [m]), .add 1, .delete true]

def result (messages : List StoredSms) : Option (List (Station × Action) × Station) :=
  exec (Station.step config) .init (oneByOne messages)

theorem run (messages : List StoredSms) (h : (result messages).isSome = true) :
    StationRun config ((result messages).get h).1 ((result messages).get h).2 :=
  run_of_exec (Option.some_get h).symm

/-- The parts of a long message have the sender and the second in common. -/
def parts : List StoredSms :=
  [sms (str "26/05/02,14:33:11+12") (str "Your code is in the") (by decide),
    sms (str "26/05/02,14:33:11+12") (str "VERIFY ABCDEF") (by decide)]

def twoSeconds : List StoredSms :=
  [sms (str "26/05/02,14:33:11+12") (str "VERIFY ABCDEF") (by decide),
    sms (str "26/05/02,14:33:12+12") (str "VERIFY ABCDEF") (by decide)]

theorem parts_run : (result parts).isSome = true := by decide +kernel

theorem twoSeconds_run : (result twoSeconds).isSome = true := by decide +kernel

/-- Two messages with different bodies have one key. -/
def collides (log : List (Station × Action)) : Bool :=
  (reads log).any fun r => (reads log).any fun r' =>
    r.place.line == 0 && r.place != r'.place && r.sms.body != r'.sms.body &&
      r.key config == r'.key config

end KeysScript

/-- Two messages of one sender that arrive in one slot in different seconds, each read twice. -/
theorem keys_faithful_script : ∃ log s, StationRun KeysScript.config log s ∧
    (reads log).length = 4 ∧ Faithful KeysScript.config log := by
  have run := KeysScript.run _ KeysScript.twoSeconds_run
  exact ⟨_, _, run, by decide +kernel, (keys_faithful run).mpr (by decide +kernel)⟩

/-- The second part of a long message, with the sender and the second of the first, is taken for
the first: it is in no slot and not in the queue. -/
theorem part_taken_for_another : ∃ log s, StationRun KeysScript.config log s ∧
    ¬Faithful KeysScript.config log ∧ s.slots.length = 0 ∧
    s.queue.rows.map (·.body) = [str "Your code is in the"] := by
  refine ⟨_, _, KeysScript.run _ KeysScript.parts_run, fun faithful => ?_, by decide +kernel,
    by decide +kernel⟩
  have collision : KeysScript.collides ((KeysScript.result KeysScript.parts).get
      KeysScript.parts_run).1 = true := by decide +kernel
  obtain ⟨r, hr, collision⟩ := List.any_eq_true.mp collision
  obtain ⟨r', hr', collision⟩ := List.any_eq_true.mp collision
  simp only [Bool.and_eq_true, bne_iff_ne, beq_iff_eq] at collision
  obtain ⟨⟨⟨printed, other⟩, _⟩, key⟩ := collision
  exact other (faithful.distinct r hr printed r' hr' key)

end Syrotp.Gsm
