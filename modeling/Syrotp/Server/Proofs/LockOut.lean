import Syrotp.Server.Proofs.PendingCap
import Syrotp.Server.Proofs.Reports

/-!
# Starts that lapsed rows turn away

The count of a start asks for `status = 'pending'` only. A row enters the count when its start
commits and leaves it when a cancellation, a match or an expiry of it commits, and an expiry begins
only with a read: the end of the TTL takes nothing out. `standing` follows both along the log, and
a start is turned away for lapsed rows exactly where those left standing fill the cap.
-/

namespace Syrotp

variable {env : Env}

/-! ## What enters the count and what leaves it -/

/-- The verification that the next statement of a start commits. -/
def Call.admitting : Call → Option Verification
  | .start _ (.commit _ row) => some row
  | _ => none

/-- The verification that the next statement of a cancellation, a match or an expiry commits. -/
def Call.clearing (c : Call) : Option Verification :=
  match c.committing with
  | some (_, row, .returned ..) => some row
  | _ => none

/-- The verification whose start a logged step commits. -/
def admitted : Server × Act Request Move → Option Verification
  | (s, .turn i m) => m.clock.bind fun _ => (s.calls[i]?).bind Call.admitting
  | _ => none

/-- The verification whose cancellation, match or expiry a logged step commits. -/
def cleared : Server × Act Request Move → Option Id
  | (s, .turn i m) => m.clock.bind fun _ => ((s.calls[i]?).bind Call.clearing).map (·.id)
  | _ => none

/-- The verifications that the log has started and neither cancelled, matched nor expired. -/
def standing (log : List (Server × Act Request Move)) : List Verification :=
  (log.filterMap admitted).filter fun x => x.id ∉ log.filterMap cleared

/-- What a logged step does to the verifications: it commits a start, a resolution, or neither. -/
inductive CountStep (p q : Server) (e : Server × Act Request Move) : Prop
  | neither : admitted e = none → cleared e = none →
      q.store.verifications = p.store.verifications → CountStep p q e
  | start {row} : admitted e = some row → cleared e = none → row.status = .pending →
      (∀ x ∈ p.store.verifications, x.id ≠ row.id) →
      q.store.verifications = p.store.verifications ++ [row] → CountStep p q e
  | resolution {row} : admitted e = none → cleared e = some row.id → row.status ≠ .pending →
      (∃ x ∈ p.store.verifications, x.id = row.id) →
      q.store.verifications =
        updateWhere (fun v => v.id = row.id) (fun _ => row) p.store.verifications →
      CountStep p q e

theorem Call.clearing_eq {c : Call} {row : Verification} (h : c.clearing = some row) :
    c.admitting = none ∧ ∃ eventType eventId t ds,
      c.committing = some (eventType, row, .returned eventId t ds) := by
  unfold Call.clearing at h
  split at h
  · next eventType row' eventId t ds committing =>
    obtain rfl := Option.some.inj h
    refine ⟨?_, eventType, eventId, t, ds, committing⟩
    cases c with
    | start input phase => cases committing
    | _ => rfl
  · cases h

/-- Only the two commits change the table of verifications. -/
theorem verifications_of_origin {db : Db} {c : Call} {w : Write} (h : Origin env db c (some w))
    (admits : c.admitting = none) (clears : c.clearing = none) :
    (db.commit w).verifications = db.verifications := by
  cases w with
  | insertVerification row =>
    obtain ⟨input, receiver, rfl⟩ := h.insertion row rfl
    cases admits
  | resolveVerification row event deliveries inbound =>
    obtain ⟨eventType, e, committing, written⟩ := h.resolution _ _ _ _ rfl
    obtain ⟨eventId, t, ds, rfl, _⟩ := Emission.write?_eq_some written
    simp [Call.clearing, committing] at clears
  | _ => rfl

theorem Server.count_step {p q : Server} {a : Act Request Move} (good : p.Good env)
    (hs : p.step (server env) a = some q) : CountStep p q (p, a) := by
  cases a with
  | arrive r =>
    obtain ⟨c, _, rfl⟩ := Pool.step_arrive hs
    exact .neither rfl rfl rfl
  | turn i m =>
    obtain ⟨c, _, hc, _, _⟩ := Pool.step_turn hs
    cases clock : m.clock with
    | none =>
      refine .neither ?_ ?_ (congrArg Db.verifications (Server.failed_step hs clock)) <;>
        simp [admitted, cleared, clock]
    | some now =>
      obtain ⟨v, w, t, hv, ran, stored⟩ := Server.ran_step hs clock hc
      have admits : admitted (p, .turn i m) = c.admitting := by simp [admitted, clock, hc]
      have clears : cleared (p, .turn i m) = c.clearing.map (·.id) := by
        simp [cleared, clock, hc]
      cases clearing : c.clearing with
      | some row =>
        obtain ⟨admits', eventType, eventId, t', ds, committing⟩ := Call.clearing_eq clearing
        obtain ⟨inbound, x, hx, _, resolves, _⟩ :=
          Call.Ok.emitting (good.ok i c hc) (Call.emission_of_committing committing)
        obtain ⟨write, inbound', written, after⟩ := Server.commits_step hs clock hc committing
        obtain ⟨_, _, _, _, rfl⟩ := Emission.write?_eq_some written
        exact .resolution (admits.trans admits') (by rw [clears, clearing]; rfl)
          resolves.not_pending ⟨x, hx, resolves.id.symm⟩ (congrArg Db.verifications after)
      | none =>
        rw [clearing] at clears
        cases admitting : c.admitting with
        | some row =>
          cases c with
          | start input phase =>
            obtain ⟨⟨phase', x⟩, hr, rfl⟩ := Option.map_eq_some_iff.mp ran
            cases phase with
            | commit receiver row' =>
              obtain rfl := Option.some.inj admitting
              have fresh : Insertable env p.store row' := good.ok i _ hc
              cases startVerification_step hr with
              | committed =>
                refine .start admits clears fresh.pending (hasKey_eq_false.mp fresh.newId) ?_
                rw [stored, hv]
                rfl
            | _ => cases admitting
          | _ => cases admitting
        | none =>
          rw [admitting] at admits
          refine .neither admits clears ?_
          rcases Server.step_write good hs with
            same | ⟨_, _, c', w, turn, hc', written, _, _, origin⟩
          · rw [same]
          · obtain ⟨rfl, _⟩ := Act.turn.inj turn
            obtain rfl := Option.some.inj (hc.symm.trans hc')
            rw [written]
            exact verifications_of_origin origin admitting clearing

/-- A row that is closed is none of the pending ones. -/
theorem pending_updateWhere {t : List Verification} {row : Verification}
    (closed : row.status ≠ .pending) :
    (updateWhere (fun v => v.id = row.id) (fun _ => row) t).filter (fun x => x.status = .pending) =
      (t.filter fun x => x.status = .pending).filter fun x => x.id ≠ row.id := by
  have out : ∀ _ : Verification, decide (row.status = .pending) = false :=
    fun _ => decide_eq_false closed
  rw [filter_updateWhere out, List.filter_filter]
  refine List.filter_congr fun x _ => ?_
  rw [decide_not]

/-- The pending rows are those left standing. -/
theorem ServerRun.standing {log : List (Server × Act Request Move)} {p : Server}
    (run : ServerRun env log p) :
    (p.store.verifications.filter fun x => x.status = .pending) = standing log ∧
      ∀ id ∈ log.filterMap cleared, ∃ x ∈ p.store.verifications, x.id = id := by
  induction run with
  | start => exact ⟨rfl, fun id hid => absurd hid List.not_mem_nil⟩
  | @next log p q a run hs ih =>
    obtain ⟨rows, known⟩ := ih
    have logged {β : Type} (f : Server × Act Request Move → Option β) :
        (log ++ [(p, a)]).filterMap f = log.filterMap f ++ (f (p, a)).toList :=
      List.filterMap_append
    unfold Syrotp.standing at rows ⊢
    rw [logged, logged]
    cases Server.count_step (ServerRun.good run) hs with
    | neither admits clears same =>
      rw [admits, clears, same]
      simp only [Option.toList_none, List.append_nil]
      exact ⟨rows, known⟩
    | @start row admits clears pending fresh after =>
      rw [admits, clears, after]
      have unknown : row.id ∉ log.filterMap cleared := fun gone => by
        obtain ⟨x, hx, same⟩ := known _ gone
        exact fresh x hx same
      simp only [Option.toList_none, Option.toList_some, List.append_nil, List.filter_append, rows]
      refine ⟨?_, fun id hid => ?_⟩
      · simp [pending, unknown]
      · obtain ⟨x, hx, same⟩ := known id hid
        exact ⟨x, List.mem_append_left _ hx, same⟩
    | @resolution row admits clears closed named after =>
      rw [admits, clears, after, pending_updateWhere closed, rows, List.filter_filter]
      simp only [Option.toList_none, Option.toList_some, List.append_nil]
      refine ⟨List.filter_congr fun x _ => ?_, fun id hid => ?_⟩
      · change (decide (x.id ≠ row.id) && decide (x.id ∉ log.filterMap cleared)) =
          decide (x.id ∉ log.filterMap cleared ++ [row.id])
        rw [Bool.eq_iff_iff]
        simp [and_comm]
      · obtain ⟨x, hx, same⟩ : ∃ x ∈ p.store.verifications, x.id = id := by
          rcases List.mem_append.mp hid with before | now
          · exact known id before
          · obtain rfl := List.mem_singleton.mp now
            exact named
        by_cases hit : x.id = row.id
        · exact ⟨row, mem_updateWhere_of_pos hx (by simpa using hit), hit.symm.trans same⟩
        · exact ⟨x, mem_updateWhere_of_neg hx (by simpa using hit), same⟩

/-! ## Turned away -/

/-- The pending rows of a phone that are within their TTL. -/
def unexpiredPending (db : Db) (appId : Id) (phoneE164 : Text) (now : Time) : Nat :=
  db.verifications.countP fun x =>
    x.appId = appId ∧ x.phoneE164 = phoneE164 ∧ x.status = .pending ∧ now < x.expiresAt

/-- At a step that counts, after `before`: if the verifications of the phone left standing and
within their TTL leave room under the cap, so do all that are left standing. -/
def leavesRoom (env : Env) (before : List (Server × Act Request Move)) :
    Server × Act Request Move → Bool
  | (s, .turn i (.statement w)) =>
    match s.calls[i]? with
    | some (.start input (.countPending _)) =>
      let left := (standing before).filter fun x =>
        x.appId = input.appId ∧ x.phoneE164 = input.phoneE164
      decide (left.countP (fun x => w.now < x.expiresAt) < env.config.maxPendingPerPhone →
        left.length < env.config.maxPendingPerPhone)
    | _ => true
  | _ => true

/-- Cancellations, matches and expiries keep the lapsed rows from filling the cap at any count. -/
def ClearedInTime (env : Env) (log : List (Server × Act Request Move)) : Prop :=
  ∀ n (h : n < log.length), leavesRoom env (log.take n) log[n] = true

instance (log : List (Server × Act Request Move)) : Decidable (ClearedInTime env log) :=
  inferInstanceAs (Decidable (∀ n (h : n < log.length),
    leavesRoom env (log.take n) log[n] = true))

/-- Both counts, read off the log. -/
theorem ServerRun.counts {log : List (Server × Act Request Move)} {p : Server}
    (run : ServerRun env log p) (appId : Id) (phoneE164 : Text) (now : Time) :
    let left := (Syrotp.standing log).filter fun x => x.appId = appId ∧ x.phoneE164 = phoneE164
    phonePending p.store appId phoneE164 = left.length ∧
      unexpiredPending p.store appId phoneE164 now = left.countP fun x => now < x.expiresAt := by
  rw [← run.standing.1]
  constructor
  · rw [phonePending, List.countP_eq_length_filter, List.filter_filter]
    simp [Bool.and_assoc]
  · rw [unexpiredPending, List.countP_filter, List.countP_filter]
    refine List.countP_congr fun x _ => ?_
    simp only [decide_eq_true_eq, Bool.and_eq_true]
    tauto

/-- The log has the step at which the start at position `i` counted at least `least` rows. -/
def Counted (log : List (Server × Act Request Move)) (i : Nat) (input : StartVerificationInput)
    (least : Nat) (count : Db → Time → Nat) : Prop :=
  ∃ s w attempt, (s, Act.turn i (.statement w)) ∈ log ∧
    s.calls[i]? = some (.start input (.countPending attempt)) ∧ least ≤ count s.store w.now

/-- A start that answers `too_many_pending` has counted the cap. -/
theorem ServerRun.too_many_counted {log : List (Server × Act Request Move)} {p : Server}
    (run : ServerRun env log p) {i : Nat} {input : StartVerificationInput}
    (hc : p.calls[i]? = some (.start input (.done (.error tooManyPending)))) :
    Counted log i input env.config.maxPendingPerPhone fun db _ =>
      phonePending db input.appId input.phoneE164 := by
  refine run.call_history (K := fun log i c =>
    ∀ input, c = .start input (.done (.error tooManyPending)) →
      Counted log i input env.config.maxPendingPerPhone fun db _ =>
        phonePending db input.appId input.phoneE164) ?_ ?_ ?_ i _ hc input rfl
  · rintro log q a i c _ h input rfl
    obtain ⟨s, w, attempt, logged, h⟩ := h input rfl
    exact ⟨s, w, attempt, List.mem_append_left _ logged, h⟩
  · rintro log i _ new _ input rfl
    exact nomatch new
  · intro log q i c m t _ hc turn _ input after
    obtain ⟨phase, rfl⟩ := Call.start_of_crashed (turn.crashed.symm.trans (congrArg _ after))
    cases turn with
    | @statement w _ _ _ _ _ _ ran =>
      obtain ⟨⟨phase', x⟩, hr, rfl⟩ := Option.map_eq_some_iff.mp ran
      obtain ⟨_, rfl⟩ := Call.start.inj after
      generalize answer : StartPhase.done (.error tooManyPending) = phase' at hr
      cases startVerification_step hr with
      | @tooMany attempt full => exact ⟨q, w, attempt, by simp, hc, full⟩
      | collided =>
        unfold afterCollision at answer
        split at answer
        · exact nomatch answer
        · exact absurd answer (by decide)
      | unbound => exact absurd answer (by decide)
      | noReceiver => exact absurd answer (by decide)
      | _ => exact nomatch answer
    | error | lost | crash => exact nomatch after

/-- In every run in which cancellations, matches and expiries are in time, each start that is
answered `too_many_pending` found the cap in unexpired verifications. -/
theorem locked_out_by_unexpired {log : List (Server × Act Request Move)} {p : Server}
    (run : ServerRun env log p) (inTime : ClearedInTime env log) {i : Nat}
    {input : StartVerificationInput}
    (hc : p.calls[i]? = some (.start input (.done (.error tooManyPending)))) :
    Counted log i input env.config.maxPendingPerPhone fun db now =>
      unexpiredPending db input.appId input.phoneE164 now := by
  obtain ⟨s, w, attempt, logged, here, full⟩ := run.too_many_counted hc
  refine ⟨s, w, attempt, logged, here, ?_⟩
  obtain ⟨n, hn, same⟩ := List.mem_iff_getElem.mp logged
  have split : log = log.take n ++ (s, .turn i (.statement w)) :: log.drop (n + 1) := by
    rw [← same, ← List.drop_eq_getElem_cons hn, List.take_append_drop]
  obtain ⟨_, before, _, _⟩ := run.split_at split
  have room := inTime n hn
  obtain ⟨pending, unexpired⟩ := ServerRun.counts before input.appId input.phoneE164 w.now
  simp only [same, leavesRoom, here, decide_eq_true_eq] at room
  rw [← pending, ← unexpired] at room
  exact Nat.le_of_not_lt fun fewer => Nat.not_lt.mpr full (room fewer)

namespace Script

/-- A fourth start while the first three run: call 6. -/
def turnedAway : List (Act Request Move) :=
  crowded ++ [.arrive (.startVerification start)] ++ turns 6 3 (coded 1060 3)

theorem turnedAway_runs : (result turnedAway).isSome = true := by decide +kernel

/-- The three of `crowded` lapse and nobody reads them. The receiver's heartbeat arrives (call 6),
and a fourth start comes as far as its count (call 7). -/
def abandoned : List (Act Request Move) :=
  crowded ++
  [.arrive (.maintain (.putReceiver { receiverRow 1 with lastHeartbeatAt := some 700000 }))] ++
  turns 6 1 (world 700000) ++
  [.arrive (.startVerification start)] ++ turns 7 2 (coded 700010 3)

theorem abandoned_runs : (result abandoned).isSome = true := by decide +kernel

theorem abandoned_counts : (((result abandoned).get abandoned_runs).2.step (server .ascii)
    (.turn 7 (.statement (world 700020)))).isSome = true := by decide +kernel

/-- What the fourth start asked for. -/
def startInput : StartVerificationInput := ⟨app, phone, text "login", none, none, none, none⟩

end Script

/-- A fourth start while three verifications are waiting is turned away, and rightly so. -/
theorem locked_out_by_unexpired_script : ∃ log p, ServerRun .ascii log p ∧
    p.calls[6]? = some (.start Script.startInput (.done (.error tooManyPending))) ∧
    Counted log 6 Script.startInput 3 fun db now =>
      unexpiredPending db Script.app Script.phone now := by
  have run := Script.run _ Script.turnedAway_runs
  have answer : ((Script.result Script.turnedAway).get Script.turnedAway_runs).2.calls[6]? =
      some (.start Script.startInput (.done (.error tooManyPending))) := by decide +kernel
  have inTime : ClearedInTime .ascii
      ((Script.result Script.turnedAway).get Script.turnedAway_runs).1 := by decide +kernel
  exact ⟨_, _, run, answer, locked_out_by_unexpired run inTime answer⟩

/-- A bound phone with a healthy receiver and not one unexpired verification is turned away
because of rows that have lapsed unread. -/
theorem locked_out_by_lapsed : ∃ log p i w input attempt q, ServerRun .ascii log p ∧
    p.calls[i]? = some (.start input (.countPending attempt)) ∧
    isBound p.store input.appId input.phoneE164 = true ∧
    (∃ r ∈ p.store.receivers, healthyReceiver .ascii input.appId none w.dbNow r = true) ∧
    unexpiredPending p.store input.appId input.phoneE164 w.now = 0 ∧
    p.step (server .ascii) (.turn i (.statement w)) = some q ∧
    q.calls[i]? = some (.start input (.done (.error tooManyPending))) := by
  obtain ⟨attempt, here⟩ : ∃ attempt,
      ((Script.result Script.abandoned).get Script.abandoned_runs).2.calls[7]? =
        some (.start Script.startInput (.countPending attempt)) :=
    ⟨⟨⟨newId .verification 700010, 700010⟩, 0, generateCode 6 fun _ => 3, 700010⟩,
      by decide +kernel⟩
  refine ⟨_, _, 7, Script.world 700020, Script.startInput, attempt, _,
    Script.run _ Script.abandoned_runs, here, ?_, ?_, ?_,
    (Option.some_get Script.abandoned_counts).symm, ?_⟩ <;> decide +kernel

end Syrotp
