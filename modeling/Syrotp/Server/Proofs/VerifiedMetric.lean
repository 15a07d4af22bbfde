import Syrotp.Server.Metrics
import Syrotp.Server.Proofs.Bindings
import Syrotp.Server.Proofs.Loss

/-!
# The counter of verified verifications

The inbound route counts a verified verification whenever `processInbound` has matched. That is
when a claim has committed, and also when a phone binding has been verified. A step changes the
number of verified rows and the counter by the same amount, except where a binding ends.
-/

namespace Syrotp

variable {env : Env} {db : Db} {others : List Call} {c : Call} {w : World} {t : Turn Db Call}

/-! ## What is compared -/

def MetricEvent.isVerified : MetricEvent → Bool
  | .verificationTerminal _ .verified => true
  | _ => false

/-- The increments of the terminal counter with the status `verified` along a run. -/
def verifiedMetric (env : Env) (log : List (Server × Act Request Move)) : Nat :=
  (log.flatMap (metricsAt env)).countP (·.isVerified)

/-- The verifications that have become `verified`; they stay so. -/
def verifiedRows (db : Db) : Nat := db.verifications.countP fun v => v.status = .verified

/-- The call has verified a phone binding and is about to answer. -/
def Call.endsBinding : Call → Bool
  | .inbound _ (.annotate _ _) => true
  | _ => false

/-- At this step a phone binding ends. -/
def endsBinding (e : Server × Act Request Move) : Bool :=
  match e.2 with
  | .turn i (.statement _) => e.1.calls[i]?.any (·.endsBinding)
  | .turn _ _ | .arrive _ => false

/-- No process crashes, and no acknowledgement of the database is lost with one. A statement may
throw. -/
def crashFree : Act Request Move → Bool
  | .turn _ .crash | .turn _ (.lost _) => false
  | _ => true

/-! ## Writes -/

/-- Whether a write takes a verification to `verified`. -/
def Write.verifies : Write → Bool
  | .resolveVerification row .. => row.status = .verified
  | _ => false

theorem verifiedRows_commit {x : Write} (I : Db.Inv env db) (J : Justified env db x) :
    verifiedRows (db.commit x) = verifiedRows db + if x.verifies then 1 else 0 := by
  cases x with
  | insertVerification row =>
    have pending : row.status = .pending := Insertable.pending J
    simp [verifiedRows, Db.commit, Write.verifies, List.countP_append, pending]
  | resolveVerification row event deliveries inbound =>
    obtain ⟨v, hv, _, _, _, _, pending, resolves, _⟩ := J.resolve
    have counted := countP_updateWhere (q := fun v => decide (v.status = .verified))
      I.verificationIds hv resolves.id.symm
    rw [if_neg (by simp [pending])] at counted
    exact counted
  | _ => rfl

/-- The write of an emission verifies if its event says so. -/
theorem verifies_of_write {row : Verification} {eventType : VerificationEventType}
    {inbound : Option Id} {emission : Emission} {x : Write}
    (hw : emission.write? row eventType inbound = some x) (J : Justified env db x) :
    x.verifies = decide (eventType = .verified) := by
  obtain ⟨eventId, at', ds, _, rfl⟩ := Emission.write?_eq_some hw
  obtain ⟨v, _, eventType', _, _, _, _, resolves, _, _, event, _⟩ := J.resolve
  obtain rfl : eventType = eventType' := congrArg WebhookEvent.eventType event
  cases resolves <;> rfl

/-! ## Statements -/

/-- The receiver of an inbound call is there. -/
def Call.Received (db : Db) : Call → Prop
  | .inbound input _ => ∃ r ∈ db.receivers, r.id = input.receiverId
  | _ => True

theorem countP_inboundMetrics {input : MatchInput} {outcome : MatchOutcome}
    {receivers : List Receiver} (received : ∃ r ∈ receivers, r.id = input.receiverId) :
    ((Call.inbound input (.done outcome)).metrics receivers).countP (·.isVerified) =
      if outcome.isMatched then 1 else 0 := by
  obtain ⟨r, hr, id⟩ := received
  cases found : receivers.find? fun r => r.id = input.receiverId with
  | none => exact absurd (decide_eq_true id) (List.find?_eq_none.mp found r hr)
  | some receiver =>
    simp only [Call.metrics, found]
    cases outcome <;> rfl

/-- A statement of a post changes both by the same amount, except where a binding ends. -/
theorem inbound_verified {input : MatchInput} {phase phase' : InboundPhase} {x : Option Write}
    (I : Db.Inv env db) (ok : (Call.inbound input phase).Ok env db)
    (received : ∃ r ∈ db.receivers, r.id = input.receiverId)
    (h : processInbound env (viewOf db others) w input phase = some (phase', x)) :
    verifiedRows (db.commitOption x) +
        (if (Call.inbound input phase).endsBinding then 1 else 0) =
      verifiedRows db +
        ((Call.inbound input phase').metrics db.receivers).countP (·.isVerified) := by
  have justified := (processInbound_lawful (v := viewOf db others) I ok h).justified
  cases processInbound_step h with
  | @stored fresh key =>
    have quiet : ((Call.inbound input (afterInsert env input (newId .inbound (w.ulid 0))
        w.now)).metrics db.receivers).countP (·.isVerified) = 0 := by
      unfold afterInsert
      split
      · rfl
      · split
        · exact countP_inboundMetrics received
        · rfl
    rw [quiet]
    rfl
  | @committed i row emission write hw =>
    rw [countP_inboundMetrics received]
    have J := justified write rfl
    have counted := verifiedRows_commit I J
    rw [verifies_of_write hw J] at counted
    exact counted
  | annotated =>
    rw [countP_inboundMetrics received]
    rfl
  | duplicate | probed | cleared =>
    rw [countP_inboundMetrics received]
    rfl
  | _ => rfl

theorem statement_verified (I : Db.Inv env db) (ok : c.Ok env db) (received : c.Received db)
    (h : c.statement env (viewOf db others) w = some t) :
    verifiedRows t.store + (if c.endsBinding then 1 else 0) =
      verifiedRows db + (t.call.metrics db.receivers).countP (·.isVerified) := by
  cases c with
  | inbound input phase =>
    obtain ⟨⟨phase', x⟩, hr, rfl⟩ := Option.map_eq_some_iff.mp h
    exact inbound_verified I ok received hr
  | start input phase =>
    obtain ⟨⟨phase', x⟩, hr, rfl⟩ := Option.map_eq_some_iff.mp h
    have quiet : ((Call.start input phase').metrics db.receivers).countP (·.isVerified) = 0 := by
      cases phase' with
      | done result => cases result <;> rfl
      | _ => rfl
    rw [quiet]
    have justified := (startVerification_lawful (v := viewOf db others) I ok hr).justified
    rcases startVerification_origin hr with rfl | ⟨receiver, row, rfl, rfl⟩
    · rfl
    · exact verifiedRows_commit I (justified _ rfl)
  | cancel appId id phase =>
    obtain ⟨⟨phase', x, expiry⟩, hr, rfl⟩ := Option.map_eq_some_iff.mp h
    have justified := (cancelVerification_lawful ok hr).justified
    cases cancelVerification_step hr with
    | committed hw =>
      have J := justified _ rfl
      have counted := verifiedRows_commit I J
      rw [verifies_of_write hw J] at counted
      exact counted
    | @told _ result _ => cases result <;> rfl
    | _ => rfl
  | expire id phase =>
    obtain ⟨⟨phase', x⟩, hr, rfl⟩ := Option.map_eq_some_iff.mp h
    have justified := (lazyExpireAndEmit_lawful ok hr).justified
    cases lazyExpireAndEmit_step hr with
    | committed hw =>
      have J := justified _ rfl
      have counted := verifiedRows_commit I J
      rw [verifies_of_write hw J] at counted
      exact counted
    | _ => rfl
  | bind input phase =>
    obtain ⟨⟨phase', x⟩, hr, rfl⟩ := Option.map_eq_some_iff.mp h
    rcases startBinding_origin hr with rfl | ⟨row, rfl⟩
    · rfl
    · rfl
  | revoke appId id phase =>
    cases phase with
    | ready =>
      obtain rfl := Option.some.inj h
      simp only [revokeBinding]
      split
      · rfl
      · rfl
    | _ => cases h
  | read r phase =>
    cases phase with
    | select | tell =>
      obtain rfl := Option.some.inj h
      rfl
    | _ => cases h
  | maintain m phase =>
    cases phase with
    | ready =>
      obtain ⟨x, hx, rfl⟩ := Option.map_eq_some_iff.mp h
      cases m <;> simp only [Maintenance.write?, Option.ite_none_left_eq_some,
        Option.some.injEq] at hx <;> obtain ⟨_, rfl⟩ := hx <;> rfl
    | _ => cases h
  | rejected error => cases h

/-! ## Runs -/

/-- Receivers keep their ids. -/
theorem Call.Received.commit (h : c.Received db) (x : Option Write) :
    c.Received (db.commitOption x) := by
  cases c with
  | inbound input phase =>
    obtain ⟨r, hr, id⟩ := h
    cases x with
    | none => exact ⟨r, hr, id⟩
    | some x =>
      cases x with
      | putReceiver row =>
        by_cases same : r.id = row.id
        · exact ⟨row, List.mem_append_right _ (List.mem_singleton_self _), same ▸ id⟩
        · exact ⟨r, List.mem_append_left _ (List.mem_filter.mpr ⟨hr, by simpa using same⟩), id⟩
      | _ => exact ⟨r, hr, id⟩
  | _ => trivial

theorem accepted_received {r : Request} (h : accept env db r = some c) : c.Received db := by
  cases r with
  | startVerification r =>
    simp only [accept] at h
    split at h <;> obtain rfl := Option.some.inj h <;> trivial
  | inbound receiverId body =>
    simp only [accept] at h
    split at h
    · cases h
    · next r found =>
      obtain rfl := Option.some.inj h
      have hit := List.find?_some found
      simp only [decide_eq_true_eq] at hit
      exact ⟨r, List.mem_of_find?_eq_some found, hit.1⟩
  | _ =>
    obtain rfl := Option.some.inj h
    trivial

/-- The receiver of an inbound call stays. -/
theorem ServerRun.received {log : List (Server × Act Request Move)} {p : Server}
    (run : ServerRun env log p) : ∀ c ∈ p.calls, c.Received p.store := by
  induction run with
  | start => exact List.forall_mem_nil _
  | @next log p q a run hs ih =>
    have good := ServerRun.good run
    cases a with
    | arrive r =>
      obtain ⟨c, hc, rfl⟩ := Pool.step_arrive hs
      refine List.forall_mem_append.mpr ⟨ih, List.forall_mem_singleton.mpr ?_⟩
      exact accepted_received (show accept env p.store r = some c from hc)
    | turn i m =>
      obtain ⟨c, t, hi, turn, rfl⟩ := Pool.step_turn hs
      have settled := good.settled hi
      have cases' := turn_cases settled.inv settled.self turn
      have store : ∃ x, t.store = p.store.commitOption x := by
        cases cases' with
        | statement hx => exact ⟨_, hx⟩
        | lost hx => exact ⟨_, hx⟩
        | error => exact ⟨none, rfl⟩
        | crash => exact ⟨none, rfl⟩
      obtain ⟨x, store⟩ := store
      intro c' hc'
      obtain ⟨j, hj⟩ := List.mem_iff_getElem?.mp hc'
      rw [show (⟨t.store, p.calls.set i t.call ++ t.spawned⟩ : Server).store = _ from store]
      rcases Pool.turned_call hi hj with ⟨_, old⟩ | ⟨_, rfl⟩ | ⟨_, new⟩
      · exact (ih c' (List.mem_of_getElem? old)).commit x
      · have before := (ih c (List.mem_of_getElem? hi)).commit x
        cases same : t.call with
        | inbound input phase =>
          obtain ⟨phase₀, rfl⟩ := Call.inbound_of_crashed (same ▸ cases'.crashed).symm
          exact before
        | _ => trivial
      · cases cases' with
        | statement _ _ _ spawned =>
          obtain ⟨_, rfl⟩ := spawned c' new
          trivial
        | _ => cases new

/-- A step changes the number of verified rows and the counter by the same amount, except where a
binding ends. -/
theorem Server.verified_step {p q : Server} {a : Act Request Move} (good : p.Good env)
    (received : ∀ c ∈ p.calls, c.Received p.store) (free : crashFree a = true)
    (hs : p.step (server env) a = some q) :
    verifiedRows q.store + (if endsBinding (p, a) then 1 else 0) =
      verifiedRows p.store + (metricsAt env (p, a)).countP (·.isVerified) := by
  cases a with
  | arrive r =>
    obtain ⟨_, _, rfl⟩ := Pool.step_arrive hs
    rfl
  | turn i m =>
    obtain ⟨c, t, hi, turn, rfl⟩ := Pool.step_turn hs
    cases m with
    | statement w =>
      have settled := good.settled hi
      have stated : c.statement env (viewOf p.store (p.others i)) w = some t := turn
      have counted := statement_verified settled.inv settled.self
        (received c (List.mem_of_getElem? hi)) stated
      simp only [endsBinding, metricsAt, hi, Option.any_some, Option.bind_some, stated]
      exact counted
    | error =>
      obtain ⟨_, same⟩ := Option.ite_none_right_eq_some.mp turn
      obtain rfl := Option.some.inj same
      rfl
    | lost w => cases free
    | crash => cases free

/-- So does a whole run. -/
theorem verified_run {log₀ log : List (Server × Act Request Move)} {p q : Server}
    (reached : ServerRun env log₀ p) (run : Run (Pool.step (server env)) p log q)
    (free : ∀ e ∈ log, crashFree e.2 = true) :
    verifiedRows q.store + log.countP endsBinding =
      verifiedRows p.store + verifiedMetric env log := by
  induction run with
  | start => rfl
  | @next log q q' a run hs ih =>
    have before := ih fun e he => free e (List.mem_append_left _ he)
    have reached' := reached.trans run
    have here : crashFree a = true := free (q, a) (by simp)
    have step := Server.verified_step (ServerRun.good reached') (ServerRun.received reached') here hs
    have metric : verifiedMetric env (log ++ [(q, a)]) =
        verifiedMetric env log + (metricsAt env (q, a)).countP (·.isVerified) := by
      simp [verifiedMetric, List.countP_append]
    rw [List.countP_append, List.countP_singleton, metric]
    omega

/-- In a run without crashes, from any reachable server, the counter is incremented as often as a
verification becomes `verified` if and only if no phone binding ends in the run. -/
theorem verified_metric_iff {log₀ log : List (Server × Act Request Move)} {p q : Server}
    (reached : ServerRun env log₀ p) (run : Run (Pool.step (server env)) p log q)
    (free : ∀ e ∈ log, crashFree e.2 = true) :
    verifiedRows q.store = verifiedRows p.store + verifiedMetric env log ↔
      ∀ e ∈ log, endsBinding e = false := by
  have counted := verified_run reached run free
  have none : log.countP endsBinding = 0 ↔ ∀ e ∈ log, endsBinding e = false := by
    simp only [List.countP_eq_zero, Bool.not_eq_true]
  rw [← none]
  omega

/-! ## A binding and a verification -/

namespace Script

/-- The message of the waiting verification arrives. -/
def answering : List (Act Request Move) :=
  [.arrive (.inbound receiver verifyMessage)] ++ turns 4 7 (world 1050)

theorem answering_runs : (later answering).isSome = true := by decide +kernel

end Script

/-- A phone is bound and nothing is verified: the counter says one. -/
theorem binding_counted_as_verified : ∃ log p, ServerRun .ascii log p ∧
    (∀ e ∈ log, crashFree e.2 = true) ∧ p.store.verifications = [] ∧
    verifiedMetric .ascii log = 1 ∧
    verifiedRows p.store ≠ verifiedRows Server.init.store + verifiedMetric .ascii log := by
  refine ⟨_, _, Script.run _ Script.bound_runs, List.all_eq_true.mp ?_, ?_, ?_, ?_⟩
  all_goals decide +kernel

/-- A verification is verified. -/
theorem verified_metric_script : ∃ log₀ log p q, ServerRun .ascii log₀ p ∧
    Run (Pool.step (server .ascii)) p log q ∧ verifiedRows q.store = 1 ∧
    verifiedRows q.store = verifiedRows p.store + verifiedMetric .ascii log := by
  have reached : ServerRun .ascii _ Script.waiting := Script.run _ Script.started_runs
  have run := Script.run_later _ Script.answering_runs
  have none : ((Script.later Script.answering).get Script.answering_runs).1.all
      (fun e => !endsBinding e) = true := by decide +kernel
  refine ⟨_, _, _, _, reached, run, by decide +kernel,
    (verified_metric_iff reached run (List.all_eq_true.mp ?_)).mpr fun e he => ?_⟩
  · decide +kernel
  · simpa using List.all_eq_true.mp none e he

end Syrotp
