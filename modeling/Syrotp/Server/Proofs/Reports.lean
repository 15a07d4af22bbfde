import Syrotp.Server.Proofs.Completeness

/-!
# What a client has been told

A read selects the row, then looks at the clock and computes the status it reports, before the row
is updated: past the TTL it reports `expired` while the row is, or was, still `pending`.
`ReportsFinal` asks that what was reported then stays so. It does exactly as long as no cancellation
and no match commits after the SELECT of such a read.
-/

namespace Syrotp

variable {env : Env}

/-! ## Reports -/

/-- The next statement of a call is the SELECT of a read. -/
def Call.isSelecting : Call → Bool
  | .read _ .select | .cancel _ _ .reread => true
  | _ => false

/-- The read whose rows have come to a call, and the rows. -/
def Call.telling : Call → Option (Read × Option SelectedRow)
  | .read r (.tell selected) => some (r, selected)
  | .cancel appId id (.tell selected) => some (.getVerification appId id, selected)
  | _ => none

/-- A call that will not select any more. -/
def Call.hasSelected : Call → Bool
  | .read _ .select => false
  | .read .. | .cancel _ _ (.tell _) | .cancel _ _ (.done _) | .cancel _ _ .failed => true
  | _ => false

/-- The status in an answer. -/
def ReadAnswer.status : ReadAnswer → Option VerificationStatus
  | .verification (.ok v) => some v.status
  | .verification (.error _) => none
  | .hosted result => result.map (·.status)
  | .hostedStatus result => result.map (·.status)

/-- The server time of a statement. -/
def Move.clock : Move → Option Time
  | .statement w => some w.now
  | .lost w => some w.now
  | .error => none
  | .crash => none

def stepClock : Act Request Move → Option Time
  | .arrive _ => none
  | .turn _ m => m.clock

/-- Server times do not decrease. -/
def Clocked (log : List (Server × Act Request Move)) : Prop :=
  log.Pairwise fun e e' => ∀ t ∈ stepClock e.2, ∀ t' ∈ stepClock e'.2, t ≤ t'

instance (log : List (Server × Act Request Move)) : Decidable (Clocked log) :=
  inferInstanceAs (Decidable (List.Pairwise _ log))

/-- A status reported to a client: by which call, and when. -/
structure Report where
  call : Nat
  id : Id
  status : VerificationStatus
  time : Time
  deriving DecidableEq, Repr

/-- What a logged step reports. -/
def reported : Server × Act Request Move → Option Report
  | (s, .turn i (.statement w)) =>
    ((s.calls[i]?).bind Call.telling).bind fun r =>
      (r.1.tell w.now r.2).status.map fun status => ⟨i, r.1.id, status, w.now⟩
  | _ => none

/-- The call whose SELECT of a read a logged step is. -/
def selecting : Server × Act Request Move → Option Nat
  | (s, .turn i (.statement _)) => if (s.calls[i]?).any Call.isSelecting then some i else none
  | _ => none

/-- The verification whose cancellation or match a logged step commits. -/
def overruled : Server × Act Request Move → Option Verification
  | (s, .turn i m) =>
    match (s.calls[i]?).bind Call.committing, m.clock with
    | some (eventType, row, .returned ..), some _ => if eventType = .expired then none else some row
    | _, _ => none
  | _ => none

/-- A terminal status, once reported, is what every read reports that selects later, and what the
event says. -/
structure ReportsFinal (log : List (Server × Act Request Move)) (p : Server) : Prop where
  repeated : log.Pairwise fun e e' => ∀ r ∈ reported e, r.status ≠ .pending →
    ∀ i ∈ selecting e', ∀ r' ∈ log.filterMap reported, r'.call = i → r'.id = r.id →
      r'.status = r.status
  event : ∀ e ∈ log, ∀ r ∈ reported e, r.status ≠ .pending →
    ∀ ev ∈ eventsOf p.store r.id, ev.eventType.terminal = r.status

/-- No cancellation or match commits after the SELECT of a read of its verification that looks at
the clock past the TTL. -/
def TimelyCommits (log : List (Server × Act Request Move)) : Prop :=
  log.Pairwise fun e e' => ∀ i ∈ selecting e, ∀ row ∈ overruled e',
    ∀ r ∈ log.filterMap reported, r.call = i → r.id = row.id → r.time < row.expiresAt

instance (log : List (Server × Act Request Move)) : Decidable (TimelyCommits log) :=
  inferInstanceAs (Decidable (List.Pairwise _ log))

/-! ## What a report says -/

theorem Read.row_mem {r : Read} {db : Db} {x : Verification} (h : r.row db = some x) :
    x ∈ db.verifications ∧ x.id = r.id := by
  cases r with
  | getVerification appId id =>
    have hit := List.find?_some h
    simp only [decide_eq_true_eq] at hit
    exact ⟨List.mem_of_find?_eq_some h, hit.1⟩
  | getHostedVerification id =>
    have hit := List.find?_some h
    simp only [decide_eq_true_eq] at hit
    exact ⟨List.mem_of_find?_eq_some h, hit⟩
  | getHostedVerificationStatus id =>
    have hit := List.find?_some h
    simp only [decide_eq_true_eq] at hit
    exact ⟨List.mem_of_find?_eq_some h, hit⟩

theorem Read.select_row (r : Read) (db : Db) : (r.select db).map (·.row) = r.row db := by
  unfold Read.select
  cases r.row db with
  | none => rfl
  | some row => cases r <;> rfl

/-- Every read reports the effective status of the row it has. -/
theorem Read.tell_status (r : Read) (now : Time) (selected : Option SelectedRow) :
    (r.tell now selected).status = (selected.map (·.row)).map fun x => effectiveStatus x now := by
  cases r <;> cases selected <;> rfl

theorem reported_eq {s : Server} {a : Act Request Move} {r : Report}
    (h : reported (s, a) = some r) : ∃ w c read selected, a = .turn r.call (.statement w) ∧
      w.now = r.time ∧ s.calls[r.call]? = some c ∧ c.telling = some (read, selected) ∧
      read.id = r.id ∧ (read.tell r.time selected).status = some r.status := by
  cases a with
  | arrive request => exact nomatch h
  | turn i m =>
    cases m with
    | statement w =>
      obtain ⟨⟨read, selected⟩, told, h⟩ := Option.bind_eq_some_iff.mp h
      obtain ⟨status, hs, rfl⟩ := Option.map_eq_some_iff.mp h
      obtain ⟨c, hc, telling⟩ := Option.bind_eq_some_iff.mp told
      exact ⟨w, c, read, selected, rfl, rfl, hc, telling, rfl, hs⟩
    | _ => exact nomatch h

theorem selecting_eq {s : Server} {a : Act Request Move} {i : Nat}
    (h : selecting (s, a) = some i) : ∃ w c, a = .turn i (.statement w) ∧ s.calls[i]? = some c ∧
      c.isSelecting = true := by
  cases a with
  | arrive request => exact nomatch h
  | turn j m =>
    cases m with
    | statement w =>
      obtain ⟨found, h⟩ := Option.ite_none_right_eq_some.mp h
      obtain rfl := Option.some.inj h
      obtain ⟨c, hc, selecting⟩ := (Option.any_eq_true _ _).mp found
      exact ⟨w, c, rfl, hc, selecting⟩
    | _ => exact nomatch h

/-- A call that will not select any more does not select. -/
theorem Call.isSelecting_of_hasSelected {c : Call} (h : c.hasSelected = true) :
    c.isSelecting = false := by
  cases c with
  | read r phase =>
    cases phase with
    | select => cases h
    | _ => rfl
  | cancel appId id phase =>
    cases phase with
    | reread => cases h
    | _ => rfl
  | _ => rfl

theorem Call.hasSelected_of_telling {c : Call} {k : Read × Option SelectedRow}
    (h : c.telling = some k) : c.hasSelected = true := by
  cases c with
  | read r phase =>
    cases phase with
    | select => cases h
    | _ => rfl
  | cancel appId id phase =>
    cases phase with
    | tell selected => rfl
    | _ => cases h
  | _ => cases h

/-- A statement that leaves a call telling was its SELECT. -/
theorem statement_telling {v : View} {w : World} {c : Call} {t : Turn Db Call}
    (h : c.statement env v w = some t) {read : Read} {selected : Option SelectedRow}
    (after : t.call.telling = some (read, selected)) :
    c.isSelecting = true ∧ selected = read.select v.db := by
  cases c with
  | read r phase =>
    cases phase with
    | select =>
      obtain rfl := Option.some.inj h
      cases after
      exact ⟨rfl, rfl⟩
    | tell _ =>
      obtain rfl := Option.some.inj h
      cases after
    | _ => exact nomatch h
  | cancel appId id phase =>
    obtain ⟨⟨phase', x, expiry⟩, hr, rfl⟩ := Option.map_eq_some_iff.mp h
    cases cancelVerification_step hr with
    | selected =>
      cases after
      exact ⟨rfl, rfl⟩
    | _ => cases after
  | revoke appId id phase | maintain m phase =>
    cases phase with
    | ready =>
      first
        | obtain rfl := Option.some.inj h; cases after
        | obtain ⟨_, _, rfl⟩ := Option.map_eq_some_iff.mp h; cases after
    | _ => exact nomatch h
  | rejected error => exact nomatch h
  | _ =>
    obtain ⟨_, _, rfl⟩ := Option.map_eq_some_iff.mp h
    cases after

/-- A call that will not select any more stays so, and one that has just selected will not. -/
theorem statement_hasSelected {v : View} {w : World} {c : Call} {t : Turn Db Call}
    (h : c.statement env v w = some t) (after : t.call.hasSelected = false) :
    c.isSelecting = false ∧ c.hasSelected = false := by
  cases c with
  | read r phase =>
    cases phase with
    | select | tell =>
      obtain rfl := Option.some.inj h
      cases after
    | _ => exact nomatch h
  | cancel appId id phase =>
    obtain ⟨⟨phase', x, expiry⟩, hr, rfl⟩ := Option.map_eq_some_iff.mp h
    cases cancelVerification_step hr with
    | selected | told => cases after
    | _ => exact ⟨rfl, rfl⟩
  | _ => exact ⟨rfl, rfl⟩

/-- What the log has of a call's read: nothing before its SELECT, and the rows of its SELECT once
they have come. -/
structure Reads (log : List (Server × Act Request Move)) (i : Nat) (c : Call) : Prop where
  fresh : c.hasSelected = false →
    ∀ e ∈ log, selecting e ≠ some i ∧ ∀ r ∈ reported e, r.call ≠ i
  rows : ∀ read selected, c.telling = some (read, selected) →
    (∃ e ∈ log, selecting e = some i) ∧
      ∀ e ∈ log, selecting e = some i → selected = read.select e.1.store

theorem not_of_other {q : Server} {a : Act Request Move} {i : Nat} (other : ∀ m, a ≠ .turn i m) :
    selecting (q, a) ≠ some i ∧ ∀ r ∈ reported (q, a), r.call ≠ i := by
  constructor
  · intro same
    obtain ⟨w, _, turn, _⟩ := selecting_eq same
    exact other _ turn
  · rintro r hr rfl
    obtain ⟨w, _, _, _, turn, _⟩ := reported_eq hr
    exact other _ turn

theorem Reads.append {log : List (Server × Act Request Move)} {i : Nat} {c : Call}
    (h : Reads log i c) {e : Server × Act Request Move}
    (other : selecting e ≠ some i ∧ ∀ r ∈ reported e, r.call ≠ i) : Reads (log ++ [e]) i c := by
  refine ⟨fun fresh => ?_, fun read selected telling => ?_⟩
  · exact List.forall_mem_append.mpr ⟨h.fresh fresh, List.forall_mem_singleton.mpr other⟩
  · obtain ⟨⟨e', he', first⟩, all⟩ := h.rows read selected telling
    refine ⟨⟨e', List.mem_append_left _ he', first⟩, ?_⟩
    exact List.forall_mem_append.mpr ⟨all, List.forall_mem_singleton.mpr fun same =>
      absurd same other.1⟩

/-- A call that ends with an exception tells nothing. -/
theorem Reads.ended {log : List (Server × Act Request Move)} {i : Nat} {c f : Call}
    (h : Reads log i c) (failed : f = c.thrown ∨ f = c.crashed) {e : Server × Act Request Move}
    (silent : selecting e = none ∧ reported e = none) : Reads (log ++ [e]) i f := by
  have before : f.telling = none ∧ (f.hasSelected = false → c.hasSelected = false) := by
    obtain rfl | rfl := failed
    all_goals
      cases c with
      | inbound input phase => cases phase <;> exact ⟨rfl, fun _ => rfl⟩
      | read | cancel => exact ⟨rfl, nofun⟩
      | _ => exact ⟨rfl, fun _ => rfl⟩
  refine ⟨fun fresh => ?_, fun read selected telling => ?_⟩
  · refine List.forall_mem_append.mpr ⟨h.fresh (before.2 fresh), List.forall_mem_singleton.mpr ?_⟩
    rw [silent.1, silent.2]
    exact ⟨nofun, nofun⟩
  · rw [before.1] at telling
    cases telling

/-- The reads of every run. -/
theorem ServerRun.reads {log : List (Server × Act Request Move)} {p : Server}
    (run : ServerRun env log p) {i : Nat} {c : Call} (hc : p.calls[i]? = some c) :
    Reads log i c := by
  refine run.call_history (K := Reads) ?_ ?_ ?_ i c hc
  · exact fun log q a i c other h => h.append (not_of_other other)
  · intro log i c new idle
    have quiet : ∀ e ∈ log, selecting e ≠ some i ∧ ∀ r ∈ reported e, r.call ≠ i :=
      fun e he => not_of_other (idle e he)
    refine ⟨fun _ => quiet, fun read selected telling => ?_⟩
    have selects := Call.hasSelected_of_telling telling
    cases c with
    | read r phase =>
      cases phase with
      | tell selected => cases new
      | _ => cases telling
    | cancel appId id phase =>
      cases phase with
      | tell selected => cases new
      | _ => cases telling
    | _ => cases telling
  · intro log q i c m t run hc turn h
    have told : ∀ r ∈ reported (q, .turn i m), c.hasSelected = true := by
      intro r hr
      obtain ⟨w, c', read, selected, same, _, hc', telling, _⟩ := reported_eq hr
      obtain ⟨rfl, _⟩ := Act.turn.inj same
      obtain rfl := Option.some.inj (hc.symm.trans hc')
      exact Call.hasSelected_of_telling telling
    have chose : selecting (q, .turn i m) = some i → c.isSelecting = true := by
      intro same
      obtain ⟨w, c', _, hc', selects⟩ := selecting_eq same
      obtain rfl := Option.some.inj (hc.symm.trans hc')
      exact selects
    cases turn with
    | @statement w t x _ _ _ _ ran =>
      refine ⟨fun fresh => ?_, fun read selected telling => ?_⟩
      · obtain ⟨unselecting, before⟩ := statement_hasSelected ran fresh
        refine List.forall_mem_append.mpr ⟨h.fresh before, List.forall_mem_singleton.mpr ⟨?_, ?_⟩⟩
        · intro same
          rw [chose same] at unselecting
          cases unselecting
        · intro r hr
          rw [told r hr] at before
          cases before
      · obtain ⟨selects, rows⟩ := statement_telling ran telling
        have fresh : c.hasSelected = false := by
          by_contra past
          rw [Bool.not_eq_false] at past
          rw [Call.isSelecting_of_hasSelected past] at selects
          cases selects
        have now : selecting (q, .turn i (.statement w)) = some i := by
          simp [selecting, hc, selects]
        refine ⟨⟨(q, .turn i (.statement w)), by simp, now⟩, ?_⟩
        exact List.forall_mem_append.mpr ⟨fun e he same => absurd same (h.fresh fresh e he).1,
          List.forall_mem_singleton.mpr fun _ => rows⟩
    | error | lost => exact h.ended (.inl rfl) ⟨rfl, rfl⟩
    | crash => exact h.ended (.inr rfl) ⟨rfl, rfl⟩

/-- A call that is about to select has reported nothing. -/
theorem ServerRun.unreported {log : List (Server × Act Request Move)}
    {e : Server × Act Request Move} (run : ServerRun env log e.1) {i : Nat} (selects : selecting e = some i) :
    ∀ e ∈ log, ∀ r ∈ reported e, r.call ≠ i := by
  obtain ⟨w, c, _, hc, selects⟩ := selecting_eq selects
  have unselected : c.hasSelected = false := by
    by_contra past
    rw [Bool.not_eq_false] at past
    rw [Call.isSelecting_of_hasSelected past] at selects
    cases selects
  exact fun e he => ((run.reads hc).fresh unselected e he).2

/-- A report is of the row that the SELECT of its read has found, at an earlier step. -/
theorem ServerRun.report {log log₁ log₂ : List (Server × Act Request Move)} {p : Server}
    {e : Server × Act Request Move} (run : ServerRun env log p) (split : log = log₁ ++ e :: log₂)
    {r : Report} (hr : r ∈ reported e) : (∃ e₀ ∈ log₁, selecting e₀ = some r.call) ∧
      ∀ e₀ ∈ log, selecting e₀ = some r.call → ∃ x ∈ e₀.1.store.verifications, x.id = r.id ∧
        r.status = effectiveStatus x r.time := by
  obtain ⟨v, before, hs, after⟩ := run.split_at split
  have before : ServerRun env log₁ e.1 := before
  obtain ⟨w, c, read, selected, turn, _, hc, telling, id, status⟩ := reported_eq hr
  obtain ⟨first, all⟩ := (before.reads hc).rows read selected telling
  refine ⟨first, fun e₀ he₀ selects => ?_⟩
  have earlier : e₀ ∈ log₁ := by
    rw [split] at he₀
    obtain here | rfl | later := (List.mem_append.mp he₀).imp_right List.mem_cons.mp
    · exact here
    · obtain ⟨_, c', _, hc', selects⟩ := selecting_eq selects
      obtain rfl := Option.some.inj (hc.symm.trans hc')
      rw [Call.isSelecting_of_hasSelected (Call.hasSelected_of_telling telling)] at selects
      cases selects
    · obtain ⟨log₃, _, _, _, between, _, _⟩ := after.split later
      have reaches : ServerRun env (log₁ ++ ([e] ++ log₃)) e₀.1 :=
        before.trans ((Run.single hs).trans between)
      exact absurd rfl (reaches.unreported selects e (by simp) r hr)
  rw [all e₀ earlier selects, Read.tell_status, Read.select_row] at status
  obtain ⟨x, hx, same⟩ := Option.map_eq_some_iff.mp status
  obtain ⟨mem, row⟩ := Read.row_mem hx
  exact ⟨x, mem, row.trans id, same.symm⟩

theorem effectiveStatus_terminal {x : Verification} {now : Time} (h : x.status ≠ .pending) :
    effectiveStatus x now = x.status := by
  unfold effectiveStatus
  rw [if_neg]
  simp [lapsed, h]

theorem effectiveStatus_pending {x : Verification} {now : Time} (h : x.status = .pending) :
    effectiveStatus x now = if x.expiresAt ≤ now then .expired else .pending := by
  unfold effectiveStatus
  by_cases due : x.expiresAt ≤ now
  · rw [if_pos (by simp [lapsed, h, due]), if_pos due]
  · rw [if_neg (by simp [lapsed, due]), if_neg due, h]

/-! ## What overrules a report -/

/-- A turn that fails before its statement leaves the database alone. -/
theorem Server.failed_step {p q : Server} {i : Nat} {m : Move}
    (hs : p.step (server env) (.turn i m) = some q) (failed : m.clock = none) :
    q.store = p.store := by
  obtain ⟨c, t, _, ht, rfl⟩ := Pool.step_turn hs
  cases m with
  | statement w => exact nomatch failed
  | lost w => exact nomatch failed
  | error =>
    simp only [server, Call.turn, Option.ite_none_right_eq_some, Option.some.injEq] at ht
    obtain ⟨_, rfl⟩ := ht
    rfl
  | crash =>
    simp only [server, Call.turn, Option.ite_none_right_eq_some, Option.some.injEq] at ht
    obtain ⟨_, rfl⟩ := ht
    rfl

/-- A turn with a clock has run its statement. -/
theorem Server.ran_step {p q : Server} {i : Nat} {m : Move} {now : Time}
    (hs : p.step (server env) (.turn i m) = some q) (clock : m.clock = some now) {c : Call}
    (hc : p.calls[i]? = some c) : ∃ v w t, v.db = p.store ∧ c.statement env v w = some t ∧
      q.store = t.store := by
  obtain ⟨c', t, hc', ht, rfl⟩ := Pool.step_turn hs
  obtain rfl := Option.some.inj (hc.symm.trans hc')
  cases m with
  | statement w => exact ⟨_, w, t, rfl, ht, rfl⟩
  | lost w =>
    obtain ⟨t', ran, rfl⟩ := Option.map_eq_some_iff.mp ht
    exact ⟨_, w, t', rfl, ran, rfl⟩
  | error => cases clock
  | crash => cases clock

/-- The statement of a call whose emission has returned commits its resolution. -/
theorem statement_commits {v : View} {w : World} {c : Call} {t : Turn Db Call}
    {eventType : VerificationEventType} {row : Verification} {eventId : Id} {at' : Time}
    {deliveries : List (Id × Id)}
    (committing : c.committing = some (eventType, row, .returned eventId at' deliveries))
    (h : c.statement env v w = some t) : ∃ write inbound,
      (Emission.returned eventId at' deliveries).write? row eventType inbound = some write ∧
        t.store = v.db.commit write := by
  cases c with
  | inbound input phase =>
    obtain ⟨⟨phase', x⟩, hr, rfl⟩ := Option.map_eq_some_iff.mp h
    cases phase with
    | commit i row' e =>
      obtain ⟨rfl, rfl, rfl⟩ := Option.some.inj committing
      obtain ⟨rfl, rfl⟩ := Option.some.inj hr
      exact ⟨_, some i, rfl, rfl⟩
    | _ => exact nomatch committing
  | cancel appId id phase =>
    obtain ⟨⟨phase', x, expiry⟩, hr, rfl⟩ := Option.map_eq_some_iff.mp h
    cases phase with
    | emit row' e =>
      obtain ⟨rfl, rfl, rfl⟩ := Option.some.inj committing
      obtain ⟨rfl, rfl, rfl⟩ := Option.some.inj hr
      exact ⟨_, none, rfl, rfl⟩
    | _ => exact nomatch committing
  | expire id phase =>
    obtain ⟨⟨phase', x⟩, hr, rfl⟩ := Option.map_eq_some_iff.mp h
    cases phase with
    | emit row' e =>
      obtain ⟨rfl, rfl, rfl⟩ := Option.some.inj committing
      obtain ⟨rfl, rfl⟩ := Option.some.inj hr
      exact ⟨_, none, rfl, rfl⟩
    | _ => exact nomatch committing
  | _ => exact nomatch committing

/-- And so does a turn of the call with a clock. -/
theorem Server.commits_step {p q : Server} {i : Nat} {m : Move} {now : Time} {c : Call}
    (hs : p.step (server env) (.turn i m) = some q) (clock : m.clock = some now)
    (hc : p.calls[i]? = some c) {eventType : VerificationEventType} {row : Verification}
    {eventId : Id} {at' : Time} {deliveries : List (Id × Id)}
    (committing : c.committing = some (eventType, row, .returned eventId at' deliveries)) :
    ∃ write inbound,
      (Emission.returned eventId at' deliveries).write? row eventType inbound = some write ∧
        q.store = p.store.commit write := by
  obtain ⟨v, w, t, same, ran, stored⟩ := Server.ran_step hs clock hc
  obtain ⟨write, inbound, written, after⟩ := statement_commits committing ran
  exact ⟨write, inbound, written, stored.trans (same ▸ after)⟩

theorem overruled_eq {p : Server} {a : Act Request Move} {row : Verification}
    (h : overruled (p, a) = some row) : ∃ i m c eventType eventId t ds now, a = .turn i m ∧
      p.calls[i]? = some c ∧ m.clock = some now ∧ eventType ≠ .expired ∧
      c.committing = some (eventType, row, .returned eventId t ds) := by
  cases a with
  | arrive r => exact nomatch h
  | turn i m =>
    simp only [overruled] at h
    split at h
    · next eventType row' eventId t ds now committing clock =>
      rw [Option.ite_none_left_eq_some] at h
      obtain ⟨other, h⟩ := h
      obtain rfl := Option.some.inj h
      obtain ⟨c, hc, committing⟩ := Option.bind_eq_some_iff.mp committing
      exact ⟨i, m, c, eventType, eventId, t, ds, now, rfl, hc, clock, other, committing⟩
    · exact nomatch h

/-- The SELECT of a read commits nothing. -/
theorem overruled_of_selecting {e : Server × Act Request Move} {i : Nat}
    (h : selecting e = some i) : overruled e = none := by
  obtain ⟨s, a⟩ := e
  cases found : overruled (s, a) with
  | none => rfl
  | some row =>
    obtain ⟨i, m, c, _, _, _, _, _, rfl, hc, _, _, committing⟩ := overruled_eq found
    obtain ⟨w, c', same, hc', selects⟩ := selecting_eq h
    obtain ⟨rfl, _⟩ := Act.turn.inj same
    obtain rfl := Option.some.inj (hc.symm.trans hc')
    cases c with
    | cancel appId id phase =>
      cases phase with
      | reread => cases committing
      | _ => cases selects
    | read r phase => cases committing
    | _ => cases selects

/-- A step that overrules finds its row pending and leaves it verified or cancelled. -/
theorem Server.overruled_step {p q : Server} {a : Act Request Move} (good : p.Good env)
    (hs : p.step (server env) a = some q) {row : Verification}
    (h : overruled (p, a) = some row) :
    (∃ v ∈ p.store.verifications, v.id = row.id ∧ v.status = .pending ∧
      v.expiresAt = row.expiresAt) ∧
    row ∈ q.store.verifications ∧ row.status ≠ .pending ∧ row.status ≠ .expired := by
  obtain ⟨i, m, c, eventType, eventId, t, ds, now, rfl, hc, clock, other, committing⟩ :=
    overruled_eq h
  obtain ⟨inbound, emitting⟩ :=
    Call.Ok.emitting (good.ok i c hc) (Call.emission_of_committing committing)
  have terminal : row.status ≠ .pending ∧ row.status ≠ .expired := by
    obtain ⟨v, _, _, resolves, _⟩ := emitting
    rw [resolves.status]
    cases eventType with
    | expired => exact absurd rfl other
    | verified => exact ⟨nofun, nofun⟩
    | cancelled => exact ⟨nofun, nofun⟩
  have stored : row ∈ q.store.verifications := by
    obtain ⟨write, inbound, written, after⟩ := Server.commits_step hs clock hc committing
    exact after ▸ (emitting.resolved written).1
  obtain ⟨v, hv, pending, resolves, _⟩ := emitting
  obtain ⟨id, _, _, _, _, expires⟩ := resolves.same
  exact ⟨⟨v, hv, id.symm, pending, expires.symm⟩, stored, terminal⟩

/-- A pending verification that ends up verified or cancelled was overruled on the way. -/
theorem Server.overruled_between {p q : Server} {log : List (Server × Act Request Move)}
    (good : p.Good env) (run : Run (Pool.step (server env)) p log q) {x y : Verification}
    (hx : x ∈ p.store.verifications) (hy : y ∈ q.store.verifications) (same : y.id = x.id)
    (pending : x.status = .pending) : y.status = .pending ∨ y.status = .expired ∨
      ∃ e ∈ log, ∃ row ∈ overruled e, row.id = x.id ∧ row.expiresAt = x.expiresAt := by
  induction run generalizing y with
  | start =>
    obtain rfl := good.inv.verification_ext hy hx same
    exact .inl pending
  | @next log t u a run hs ih =>
    have good_t := Server.good_run good run
    have before : ∀ y ∈ t.store.verifications, y.id = x.id → y.status = .pending ∨
        y.status = .expired ∨ ∃ e ∈ log ++ [(t, a)], ∃ row ∈ overruled e, row.id = x.id ∧
          row.expiresAt = x.expiresAt := by
      intro y hy same
      refine (ih hy same).imp_right (Or.imp_right ?_)
      rintro ⟨e, he, h⟩
      exact ⟨e, List.mem_append_left _ he, h⟩
    obtain ⟨x', hx', id', _, _, _, _, _, expires'⟩ := Server.follows_run good run x hx
    rcases Server.step_write good_t hs with kept | ⟨i, m, c, w, rfl, hc, written, J, _, origin⟩
    · exact before y (kept ▸ hy) same
    · cases clock : m.clock with
      | none => exact before y (Server.failed_step hs clock ▸ hy) same
      | some now =>
        rw [written] at hy
        rcases verification_origin hy with ⟨old, _⟩ | rfl | ⟨event, deliveries, inbound, rfl⟩
        · exact before y old same
        · exact absurd (id'.trans same.symm) (hasKey_eq_false.mp J.newId x' hx')
        · obtain ⟨eventType, e, committing, hw⟩ := origin.resolution _ _ _ _ rfl
          obtain ⟨eventId, at', ds, rfl, _⟩ := Emission.write?_eq_some hw
          obtain ⟨_, v, hv, _, resolves, _⟩ :=
            Call.Ok.emitting (good_t.ok i c hc) (Call.emission_of_committing committing)
          by_cases expired : eventType = .expired
          · refine .inr (.inl ?_)
            rw [resolves.status, expired]
            rfl
          · refine .inr (.inr ⟨(t, .turn i m), by simp, y, ?_, same, ?_⟩)
            · simp [overruled, hc, committing, clock, expired]
            · obtain rfl := good_t.inv.verification_ext hv hx'
                (resolves.id.symm.trans (same.trans id'.symm))
              exact resolves.same.2.2.2.2.2.trans expires'

/-- What a report of a terminal status leaves open. -/
theorem Server.after_report {p q : Server} {log : List (Server × Act Request Move)}
    (good : p.Good env) (run : Run (Pool.step (server env)) p log q) {x y : Verification}
    (hx : x ∈ p.store.verifications) (hy : y ∈ q.store.verifications) (same : y.id = x.id)
    {now : Time} (terminal : effectiveStatus x now ≠ .pending)
    (timely : ∀ e ∈ log, ∀ row ∈ overruled e, row.id = x.id → now < row.expiresAt) :
    y.status = effectiveStatus x now ∨
      (y.status = .pending ∧ effectiveStatus x now = .expired ∧ y.expiresAt ≤ now) := by
  obtain ⟨y', hy', id, status, _, _, _, _, expires⟩ := Server.follows_run good run x hx
  obtain rfl := (Server.good_run good run).inv.verification_ext hy hy' (same.trans id.symm)
  by_cases pending : x.status = .pending
  · rw [effectiveStatus_pending pending] at terminal ⊢
    by_cases due : x.expiresAt ≤ now
    · rw [if_pos due]
      rcases Server.overruled_between good run hx hy same pending with
        open' | expired | ⟨e, he, row, hrow, named, until'⟩
      · exact .inr ⟨open', rfl, expires ▸ due⟩
      · exact .inl expired
      · have before := timely e he row hrow named
        rw [until'] at before
        exact absurd before (Nat.not_lt.mpr due)
    · exact absurd (if_neg due) terminal
  · rw [effectiveStatus_terminal pending]
    rcases status with kept | ⟨open', _⟩
    · exact .inl kept
    · exact absurd open' pending

/-! ## Which reports are final -/

/-- What is committed late contradicts a report: the row was pending when it was selected and the
read reported it expired, but its event says otherwise. -/
theorem timely_of_final {log : List (Server × Act Request Move)} {p : Server}
    (run : ServerRun env log p) (final : ReportsFinal log p) : TimelyCommits log := by
  refine pairwise_of_splits fun log₁ e log₂ split e' later i selects row hrow r hr called named =>
    ?_
  refine Nat.lt_of_not_le fun due => ?_
  obtain ⟨v, before, hs, after⟩ := run.split_at split
  obtain ⟨told, htold, hr⟩ := List.mem_filterMap.mp hr
  obtain ⟨log₅, log₆, here⟩ := List.append_of_mem htold
  obtain ⟨x, hx, id, status⟩ := (run.report here hr).2 e (split ▸ by simp) (called ▸ selects)
  obtain ⟨log₃, u, log₄, _, between, hs', rest⟩ := after.split later
  have good := ServerRun.good before
  have good' := Server.good_run good ((Run.single hs).trans between)
  obtain ⟨⟨y, hy, idy, pending, expires⟩, stored, open', expired⟩ :=
    Server.overruled_step good' hs' hrow
  -- the row was pending when it was selected
  obtain ⟨y', hy', idx, moved, _, _, _, _, until'⟩ :=
    Server.follows_run good ((Run.single hs).trans between) x hx
  obtain rfl := good'.inv.verification_ext hy hy'
    (idy.trans (named.symm.trans (id.symm.trans idx.symm)))
  have waiting : x.status = .pending := by
    rcases moved with kept | ⟨first, _⟩
    · exact kept.symm.trans pending
    · exact first
  have said : r.status = .expired := by
    rw [status, effectiveStatus_pending waiting, if_pos]
    rw [← until', expires]
    exact due
  -- its event says otherwise
  obtain ⟨z, hz, idz, movedz, _⟩ := Server.follows_run
    (Server.good_run good' (Run.single hs')) rest row stored
  have statusz : z.status = row.status := by
    rcases movedz with kept | ⟨first, _⟩
    · exact kept
    · exact absurd first open'
  rcases run.good.inv.lifecycle z hz with ⟨first, _⟩ | ⟨ev, one, terminal, _⟩
  · exact absurd (statusz.symm.trans first) open'
  · have hev : ev ∈ eventsOf p.store r.id := by
      rw [named, ← idz, one]
      exact List.mem_singleton_self _
    have agrees := final.event told htold r hr (by simp [said]) ev hev
    exact expired (statusz.symm.trans (terminal.trans (agrees.trans said)))

/-- From a report on, to any later state of the run. -/
theorem report_kept {log log₁ log₂ : List (Server × Act Request Move)} {q : Server}
    (timely : TimelyCommits log) (prefix' : log = log₁ ++ log₂) (run : ServerRun env log₁ q)
    {e : Server × Act Request Move} (he : e ∈ log₁) {r : Report} (hr : r ∈ reported e)
    (terminal : r.status ≠ .pending) {y : Verification} (hy : y ∈ q.store.verifications)
    (same : y.id = r.id) : y.status = r.status ∨
      (y.status = .pending ∧ r.status = .expired ∧ y.expiresAt ≤ r.time) := by
  obtain ⟨log₃, log₄, split⟩ := List.append_of_mem he
  obtain ⟨⟨e₀, he₀, selects⟩, all⟩ := run.report split hr
  obtain ⟨x, hx, id, status⟩ := all e₀ (split ▸ List.mem_append_left _ he₀) selects
  obtain ⟨log₅, log₆, earlier⟩ := List.append_of_mem he₀
  have whole : log₁ = log₅ ++ e₀ :: (log₆ ++ e :: log₄) := by
    rw [split, earlier, List.append_assoc, List.cons_append]
  obtain ⟨v, before, hs, after⟩ := run.split_at whole
  rw [status] at terminal ⊢
  refine Server.after_report (ServerRun.good before) ((Run.single hs).trans after) hx hy
    (same.trans id.symm) terminal fun e' he' row hrow named => ?_
  rcases List.mem_append.mp he' with here | later
  · obtain rfl := List.mem_singleton.mp here
    rw [overruled_of_selecting selects] at hrow
    cases hrow
  · have rest : log = log₅ ++ e₀ :: ((log₆ ++ e :: log₄) ++ log₂) := by
      rw [← List.cons_append, ← List.append_assoc, ← whole, prefix']
    have timely : (log₅ ++ e₀ :: ((log₆ ++ e :: log₄) ++ log₂)).Pairwise fun e e' =>
        ∀ i ∈ selecting e, ∀ row ∈ overruled e', ∀ r ∈ log.filterMap reported, r.call = i →
          r.id = row.id → r.time < row.expiresAt := rest ▸ timely
    have told : r ∈ log.filterMap reported :=
      List.mem_filterMap.mpr ⟨e, prefix' ▸ List.mem_append_left _ he, hr⟩
    exact pairwise_split timely (List.mem_append_left _ later) r.call selects row hrow r told rfl
      (id.symm.trans named.symm)

theorem final_of_timely {log : List (Server × Act Request Move)} {p : Server}
    (run : ServerRun env log p) (clocked : Clocked log) (timely : TimelyCommits log) :
    ReportsFinal log p := by
  refine ⟨pairwise_of_splits fun log₁ e log₂ split e' later r hr terminal i selects r' hr' called
    same => ?_, fun e he r hr terminal ev hev => ?_⟩
  · obtain ⟨log₃, log₄, rfl⟩ := List.append_of_mem later
    have whole : log = (log₁ ++ e :: log₃) ++ e' :: log₄ := by
      rw [split, List.append_assoc, List.cons_append]
    obtain ⟨v, before, _, _⟩ := run.split_at whole
    obtain ⟨told, htold, hr'⟩ := List.mem_filterMap.mp hr'
    obtain ⟨log₅, log₆, here⟩ := List.append_of_mem htold
    obtain ⟨y, hy, id, status⟩ := (run.report here hr').2 e' (whole ▸ by simp) (called ▸ selects)
    -- the later read has reported nothing before it selects
    have ordered : r.time ≤ r'.time := by
      have after : told ∈ e' :: log₄ := by
        rw [whole] at htold
        refine (List.mem_append.mp htold).resolve_left fun early => ?_
        exact ServerRun.unreported before selects told early r' hr' called
      have clocked : (log₁ ++ e :: (log₃ ++ e' :: log₄)).Pairwise _ := split ▸ clocked
      obtain ⟨w, _, _, _, turn, time, _⟩ := reported_eq hr
      obtain ⟨w', _, _, _, turn', time', _⟩ := reported_eq hr'
      refine pairwise_split clocked (List.mem_append_right _ after) r.time ?_ r'.time ?_
      · rw [turn, ← time]
        rfl
      · rw [turn', ← time']
        rfl
    rw [status]
    rcases report_kept timely whole before (by simp) hr terminal hy (id.trans same) with
      said | ⟨pending, expired, due⟩
    · rw [effectiveStatus_terminal (said ▸ terminal), said]
    · rw [effectiveStatus_pending pending, if_pos (Nat.le_trans due ordered), expired]
  · obtain ⟨y, hy, of⟩ := run.good.inv.eventOf ev (List.mem_filter.mp hev).1
    have same : y.id = r.id := by
      have named := (List.mem_filter.mp hev).2
      rw [of] at named
      simpa using named
    rcases run.good.inv.lifecycle y hy with ⟨_, none⟩ | ⟨ev', one, tells, _⟩
    · rw [same] at none
      rw [none] at hev
      exact absurd hev List.not_mem_nil
    · rw [same] at one
      rw [one] at hev
      obtain rfl := List.mem_singleton.mp hev
      rcases report_kept timely (List.append_nil log).symm run he hr terminal hy same with
        said | ⟨pending, _⟩
      · exact tells.symm.trans said
      · rw [pending] at tells
        cases h : ev.eventType <;> simp [h, VerificationEventType.terminal] at tells

/-- In a run whose server times do not decrease, what has been reported as terminal stays so
exactly if no cancellation and no match commits after the SELECT of a read of its verification that
looks at the clock past the TTL. -/
theorem reports_final {log : List (Server × Act Request Move)} {p : Server}
    (run : ServerRun env log p) (clocked : Clocked log) :
    ReportsFinal log p ↔ TimelyCommits log :=
  ⟨timely_of_final run, final_of_timely run clocked⟩

namespace Script

/-- The id of the verification of `started`. -/
def startedId : Id := newId .verification 1030

def getStarted : List (Act Request Move) := [.arrive (.read (.getVerification app startedId))]

/-- The verification of `started` is read past its TTL (call 4), expires (call 5), and is read
again (call 6). -/
def readTwice : List (Act Request Move) :=
  started ++ getStarted ++ turns 4 2 (world 601040) ++ turns 5 4 (world 601050) ++
  getStarted ++ turns 6 2 (world 601060)

theorem readTwice_runs : (result readTwice).isSome = true := by decide +kernel

/-- Between two reads it is cancelled (call 6), before its expiry (call 5) has begun. -/
def readAroundCancel : List (Act Request Move) :=
  started ++ getStarted ++ turns 4 2 (world 601040) ++
  [.arrive (.cancelVerification app startedId)] ++ turns 6 6 (world 601050) ++
  getStarted ++ turns 7 2 (world 601060)

theorem readAroundCancel_runs : (result readAroundCancel).isSome = true := by decide +kernel

end Script

/-- Reported expired, and expired when it is read again. -/
theorem reports_final_script : ∃ log p, ServerRun .ascii log p ∧
    log.filterMap reported = [⟨4, Script.startedId, .expired, 601040⟩,
      ⟨6, Script.startedId, .expired, 601060⟩] ∧ ReportsFinal log p := by
  have run := Script.run _ Script.readTwice_runs
  have clocked : Clocked ((Script.result Script.readTwice).get Script.readTwice_runs).1 := by
    decide +kernel
  have timely : TimelyCommits ((Script.result Script.readTwice).get Script.readTwice_runs).1 := by
    decide +kernel
  exact ⟨_, _, run, by decide +kernel, (reports_final run clocked).mpr timely⟩

/-- Reported expired, then cancelled: to the caller of the cancellation, to the next reader and in
the event. -/
theorem expired_then_cancelled : ∃ log p, ServerRun .ascii log p ∧ Clocked log ∧
    log.filterMap reported = [⟨4, Script.startedId, .expired, 601040⟩,
      ⟨6, Script.startedId, .cancelled, 601050⟩, ⟨7, Script.startedId, .cancelled, 601060⟩] ∧
    (eventsOf p.store Script.startedId).map (·.eventType) = [.cancelled] := by
  refine ⟨_, _, Script.run _ Script.readAroundCancel_runs, ?_, ?_, ?_⟩ <;> decide +kernel

end Syrotp
