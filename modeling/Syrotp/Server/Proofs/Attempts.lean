import Syrotp.Server.Proofs.Schedule

/-!
# Attempts

The attempts of a delivery, their answers and what is written of them, as the log of a run shows
them. With a single worker that does not crash they are those of a job of the retry policy.
-/

namespace Syrotp

variable {W : WebhookPlatform}

/-! ## What the log shows -/

/-- The attempt that is posted for a delivery at this step. -/
def attemptAt (W : WebhookPlatform) (id : Id) (e : WorkerPool × Act WorkerRequest WorkerMove) :
    Option Nat :=
  match posts W e with
  | some (_, posted, attempt) => if posted = id then some attempt else none
  | none => none

/-- The attempts posted for a delivery, in order. -/
def attempts (W : WebhookPlatform) (id : Id) (log : WorkerLog) : List Nat :=
  log.filterMap (attemptAt W id)

/-- At this step a tick selects its batch: its position, the rows and the clock of the database. -/
def claims (e : WorkerPool × Act WorkerRequest WorkerMove) : Option (Nat × List DueRow × Time) :=
  match e.2 with
  | .turn i (.run w) =>
    match e.1.calls[i]? with
    | some (.tick .select) => some (i, e.1.batch i w, w.dbNow)
    | _ => none
  | _ => none

/-- At this step a request is answered: the position of the tick, the delivery, the attempt and
the response. -/
def answers (e : WorkerPool × Act WorkerRequest WorkerMove) :
    Option (Nat × Id × Nat × Except Thrown Nat) :=
  match e.2 with
  | .turn i (.run w) =>
    match e.1.calls[i]? with
    | some (.tick (.fetch row _ _)) =>
      some (i, row.deliveryId, row.attemptCount + 1, w.response)
    | _ => none
  | _ => none

/-- At this step an outcome is written: the position of the tick, the delivery, the attempt and the
clock it is written by. -/
def records (e : WorkerPool × Act WorkerRequest WorkerMove) : Option (Nat × Id × Nat × Time) :=
  match e.2 with
  | .turn i (.run w) =>
    match e.1.calls[i]? with
    | some (.tick (.applyOutcome row _ _)) =>
      some (i, row.deliveryId, row.attemptCount + 1, w.later)
    | _ => none
  | _ => none

/-- A success. -/
def succeeds : Except Thrown Nat → Bool
  | .ok status => 200 ≤ status && status < 300
  | .error _ => false

/-- A failure that may be retried: no response, 429 or 5xx. -/
def mayRetry : Except Thrown Nat → Bool
  | .ok status => status = 429 || 500 ≤ status && status < 600
  | .error _ => true

/-- Attempt `k` of a delivery has been answered with `response`, and this step writes what comes of
it at time `t`. -/
def Settles (before : WorkerLog) (e : WorkerPool × Act WorkerRequest WorkerMove) (id : Id) (k : Nat)
    (response : Except Thrown Nat) (t : Time) : Prop :=
  ∃ i, records e = some (i, id, k, t) ∧ ∃ e' ∈ before, answers e' = some (i, id, k, response)

/-- The attempts of each delivery in a run are as they should be. -/
structure AttemptSchedule (W : WebhookPlatform) (log : WorkerLog) (q : WorkerPool) : Prop where
  /-- They are numbered from one on. -/
  numbered : ∀ id, ∃ k ≤ maxDeliveryAttempts, attempts W id log = List.range' 1 k
  /-- What ends a delivery is in its row from then on. -/
  ends : ∀ log₁ e log₂, log = log₁ ++ e :: log₂ → ∀ id k response t,
    Settles log₁ e id k response t → ∀ u ∈ moments log₂ q,
      ∀ d ∈ u.store.db.webhookDeliveries, d.id = id →
        (succeeds response = true → d.status = .delivered) ∧
        (succeeds response = false → mayRetry response = false → d.status = .failed) ∧
        (mayRetry response = true → k = maxDeliveryAttempts → d.status = .abandoned)
  /-- A failure that may be retried schedules the next attempt, if it was not the last. -/
  retried : ∀ log₁ e log₂, log = log₁ ++ e :: log₂ → ∀ id k response t,
    Settles log₁ e id k response t → mayRetry response = true →
      ∀ v, e.1.step (webhookWorkers W) e.2 = some v →
        ∀ d ∈ v.store.db.webhookDeliveries, d.id = id →
          (d.status = .abandoned ↔ k = maxDeliveryAttempts) ∧
          (k ≠ maxDeliveryAttempts → d.status = .pending ∧
            ∃ delay, retryDelaySeconds[k - 1]? = some delay ∧
              d.nextAttemptAt = t + delay * 1000)
  /-- For that one the delivery is not claimed before. -/
  waits : ∀ log₁ e log₂, log = log₁ ++ e :: log₂ → ∀ id k response t,
    Settles log₁ e id k response t → mayRetry response = true →
      ∀ e' ∈ log, ∀ i rows time, claims e' = some (i, rows, time) → ∀ row ∈ rows,
        row.deliveryId = id → row.attemptCount = k →
          ∃ delay, retryDelaySeconds[k - 1]? = some delay ∧ t + delay * 1000 ≤ time
  /-- A request is for a row that its tick has claimed for this attempt. -/
  claimed : ∀ log₁ e log₂, log = log₁ ++ e :: log₂ → ∀ i id attempt,
    posts W e = some (i, id, attempt) → ∃ e' ∈ log₁, ∃ rows time, claims e' = some (i, rows, time) ∧
      ∃ row ∈ rows, row.deliveryId = id ∧ row.attemptCount + 1 = attempt
  /-- There is none for a row that is not pending. -/
  pending : ∀ e ∈ log, ∀ i id attempt, posts W e = some (i, id, attempt) →
    ∀ d ∈ e.1.store.db.webhookDeliveries, d.id = id → d.status = .pending
  /-- Nor for one whose endpoint was disabled when it was claimed. -/
  enabled : ∀ e ∈ log, ∀ i rows time, claims e = some (i, rows, time) → ∀ row ∈ rows,
    row.enabled = false → ∀ e' ∈ log, ∀ attempt, posts W e' ≠ some (i, row.deliveryId, attempt)
  /-- A tick that has rows can always go on. -/
  proceeds : ∀ i c, q.calls[i]? = some c → c.rows ≠ [] → ∀ w,
    (q.step (webhookWorkers W) (.turn i (.run w))).isSome = true

/-! ## Steps of the log -/

theorem claims_eq_some {e : WorkerPool × Act WorkerRequest WorkerMove} {i : Nat}
    {rows : List DueRow} {time : Time} (h : claims e = some (i, rows, time)) :
    ∃ w, e.2 = .turn i (.run w) ∧ e.1.calls[i]? = some (.tick .select) ∧
      rows = e.1.batch i w ∧ time = w.dbNow := by
  unfold claims at h
  split at h
  · next k w acts =>
    split at h
    · next hk =>
      obtain ⟨rfl, rfl, rfl⟩ := by simpa using h
      exact ⟨w, acts, hk, rfl, rfl⟩
    · exact nomatch h
  · exact nomatch h

theorem answers_eq_some {e : WorkerPool × Act WorkerRequest WorkerMove} {i k : Nat} {id : Id}
    {response : Except Thrown Nat} (h : answers e = some (i, id, k, response)) :
    ∃ w row request rest, e.2 = .turn i (.run w) ∧
      e.1.calls[i]? = some (.tick (.fetch row request rest)) ∧ row.deliveryId = id ∧
      row.attemptCount + 1 = k ∧ w.response = response := by
  unfold answers at h
  split at h
  · next l w acts =>
    split at h
    · next row request rest hl =>
      obtain ⟨rfl, rfl, rfl, rfl⟩ := by simpa using h
      exact ⟨w, row, request, rest, acts, hl, rfl, rfl, rfl⟩
    · exact nomatch h
  · exact nomatch h

theorem records_eq_some {e : WorkerPool × Act WorkerRequest WorkerMove} {i k : Nat} {id : Id}
    {t : Time} (h : records e = some (i, id, k, t)) :
    ∃ w row outcome rest, e.2 = .turn i (.run w) ∧
      e.1.calls[i]? = some (.tick (.applyOutcome row outcome rest)) ∧ row.deliveryId = id ∧
      row.attemptCount + 1 = k ∧ w.later = t := by
  unfold records at h
  split at h
  · next l w acts =>
    split at h
    · next row outcome rest hl =>
      obtain ⟨rfl, rfl, rfl, rfl⟩ := by simpa using h
      exact ⟨w, row, outcome, rest, acts, hl, rfl, rfl, rfl⟩
    · exact nomatch h
  · exact nomatch h

/-- A response is a success, or may be retried, or ends the delivery. -/
theorem deliveryOutcome_verdict (response : Except Thrown Nat) :
    (deliveryOutcome response).verdict =
      if succeeds response then .final .delivered
      else if mayRetry response then .retriable
      else .final .failed := by
  cases response with
  | error e => rfl
  | ok status =>
    simp only [deliveryOutcome, succeeds, mayRetry, Bool.and_eq_true, Bool.or_eq_true,
      decide_eq_true_eq]
    split
    · rfl
    · by_cases limited : status = 429
      · simp only [if_pos limited, if_pos (Or.inl limited), DeliveryOutcome.verdict]
      · rw [if_neg limited]
        simp only [limited, false_or]
        split
        · next client =>
          rw [if_neg (by omega)]
          rfl
        · split <;> rfl

theorem mayRetry_verdict {response : Except Thrown Nat} (h : mayRetry response = true) :
    (deliveryOutcome response).verdict = .retriable := by
  have failure : succeeds response = false := by
    cases response with
    | error => rfl
    | ok status =>
      simp only [mayRetry, Bool.or_eq_true, Bool.and_eq_true, decide_eq_true_eq] at h
      simp only [succeeds, Bool.and_eq_false_iff, decide_eq_false_iff_not]
      omega
  rw [deliveryOutcome_verdict, failure, h, if_neg Bool.false_ne_true, if_pos rfl]

theorem attemptAt_eq_some {id : Id} {e : WorkerPool × Act WorkerRequest WorkerMove} {n : Nat} :
    attemptAt W id e = some n ↔ ∃ i, posts W e = some (i, id, n) := by
  unfold attemptAt
  split
  · next i posted attempt sent =>
    rw [sent, Option.ite_none_right_eq_some]
    simp
  · next none =>
    rw [none]
    simp

/-- A request is an attempt of the job. -/
theorem posted_event {id : Id} {e : WorkerPool × Act WorkerRequest WorkerMove} {i n : Nat}
    (single : singleWorker e = true) (h : posts W e = some (i, id, n)) :
    jobEvent W id e = some (.sent n) := by
  obtain ⟨p, a⟩ := e
  obtain ⟨m, w, row, rest, request, rfl, hw, hi, decided, rfl, rfl⟩ := WorkerPool.posts_eq_some h
  cases m with
  | run world =>
    obtain rfl := Option.some.inj hw
    simp only at hi
    simp only [jobEvent, hi, WorkerPhase.event, if_true]
    exact deliverEvent_ok decided
  | error => cases hw
  | lost world =>
    have idle : p.rowsOf i = [] := List.isEmpty_iff.mp single
    simp only at hi
    rw [WorkerPool.rowsOf, hi] at idle
    cases idle

/-- And an attempt of the job is a request. -/
theorem event_posted {id : Id} {e : WorkerPool × Act WorkerRequest WorkerMove} {n : Nat}
    (h : jobEvent W id e = some (.sent n)) : ∃ i, posts W e = some (i, id, n) := by
  obtain ⟨p, a⟩ := e
  unfold jobEvent at h
  split at h
  · next i w acts =>
    obtain rfl : a = .turn i (.run w) := acts
    split at h
    · next phase hi =>
      simp only at hi
      cases phase with
      | select => cases (Option.ite_none_right_eq_some.mp h).2
      | fetch => cases (Option.ite_none_right_eq_some.mp h).2
      | applyOutcome => cases (Option.ite_none_right_eq_some.mp h).2
      | lease => cases h
      | failed => cases h
      | deliver rows =>
        cases rows with
        | nil => cases h
        | cons row rest =>
          obtain ⟨rfl, sent⟩ := Option.ite_none_right_eq_some.mp h
          cases decided : deliver W w.now row (row.attemptCount + 1) with
          | ok request =>
            rw [deliverEvent_ok decided] at sent
            obtain rfl := RetryEvent.sent.inj (Option.some.inj sent)
            obtain ⟨_, _, same, number⟩ := deliver_ok decided
            exact ⟨i, by simp only [posts, WorkerMove.world?, hi, decided, same, number]⟩
          | error outcome =>
            obtain ⟨_, _, refused⟩ := deliverEvent_error decided
            cases refused.symm.trans sent
    · cases h
  · cases h

/-- The attempts of a delivery are those of its job. -/
theorem attempts_eq {id : Id} {log : WorkerLog} (single : ∀ e ∈ log, singleWorker e = true) :
    attempts W id log = (jobEvents W id log).filterMap RetryJob.attemptOf := by
  rw [jobEvents, List.filterMap_filterMap, attempts]
  refine List.filterMap_congr fun e he => Option.ext fun n => ?_
  rw [attemptAt_eq_some, Option.bind_eq_some_iff]
  constructor
  · rintro ⟨i, posted⟩
    exact ⟨.sent n, posted_event (single e he) posted, rfl⟩
  · rintro ⟨event, h, counted⟩
    cases event with
    | sent number =>
      obtain rfl := Option.some.inj counted
      exact event_posted h
    | _ => cases counted

/-! ## The batch of a tick -/

/-- What the log has of the rows of a tick: they are of its one batch, and of those that were
answered it has at most the one whose outcome it is about to write. -/
structure TickHistory (log : WorkerLog) (i : Nat) (c : WorkerCall) : Prop where
  unclaimed : c = .tick .select → ∀ e ∈ log, ∀ rows time, claims e ≠ some (i, rows, time)
  batch : ∀ row ∈ c.rows, ∃ e ∈ log, ∃ rows time, claims e = some (i, rows, time) ∧ row ∈ rows
  only : ∀ e ∈ log, ∀ rows time, claims e = some (i, rows, time) → ∀ row ∈ rows,
    ∀ row' ∈ c.rows, row'.deliveryId = row.deliveryId → row' = row
  answered : ∀ e ∈ log, ∀ id k response, answers e = some (i, id, k, response) →
    c ≠ .tick .select ∧ (id ∈ c.rows.map (·.deliveryId) → ∃ row rest,
      c = .tick (.applyOutcome row (deliveryOutcome response) rest) ∧ row.deliveryId = id)

namespace TickHistory

variable {log : WorkerLog} {i : Nat} {c c' : WorkerCall}
  {e : WorkerPool × Act WorkerRequest WorkerMove}

theorem idle (rows : c.rows = []) (begun : c ≠ .tick .select) : TickHistory log i c := by
  have none : ∀ row, row ∉ c.rows := fun row hr => List.not_mem_nil (rows ▸ hr)
  refine ⟨fun h => absurd h begun, fun row hr => absurd hr (none row),
    fun _ _ _ _ _ _ _ row hr => absurd hr (none row), fun _ _ id k response _ => ⟨begun, ?_⟩⟩
  exact fun held => by simp [rows] at held

/-- A tick goes on with rows of its batch. -/
theorem goOn (h : TickHistory log i c) (rows : ∀ row ∈ c'.rows, row ∈ c.rows)
    (begun : c' ≠ .tick .select)
    (quiet : ∀ rows time, claims e ≠ some (i, rows, time))
    (answered : ∀ e' ∈ log ++ [e], ∀ id k response, answers e' = some (i, id, k, response) →
      id ∈ c'.rows.map (·.deliveryId) → ∃ row rest,
        c' = .tick (.applyOutcome row (deliveryOutcome response) rest) ∧ row.deliveryId = id) :
    TickHistory (log ++ [e]) i c' := by
  refine ⟨fun h => absurd h begun, fun row hr => ?_,
    fun e' he' rs time claimed row hr row' hr' => ?_,
    fun e' he' id k response h => ⟨begun, answered e' he' id k response h⟩⟩
  · obtain ⟨e', he', found⟩ := h.batch row (rows row hr)
    exact ⟨e', List.mem_append_left _ he', found⟩
  · rcases List.mem_append.mp he' with old | last
    · exact h.only e' old rs time claimed row hr row' (rows row' hr')
    · obtain rfl := List.mem_singleton.mp last
      exact absurd claimed (quiet rs time)

/-- A step of the tick. -/
theorem tick {q : WorkerPool} {phase phase' : WorkerPhase} {w : WorkerWorld} {db' : Db}
    (h : TickHistory log i (.tick phase)) (leased : q.Leased log)
    (hi : q.calls[i]? = some (.tick phase))
    (ht : TickStep W (fun id => (q.others i).any fun o => id ∈ o.locks) w q.store.db phase phase'
      db') :
    TickHistory (log ++ [(q, .turn i (.run w))]) i (.tick phase') := by
  have keys : (phase.rows.map (·.deliveryId)).Nodup := (leased.holds i _ hi).keys
  have quiet (begun : phase ≠ .select) : ∀ rows time,
      claims (q, .turn i (.run w)) ≠ some (i, rows, time) := by
    intro rows time claimed
    obtain ⟨_, _, start, _⟩ := claims_eq_some claimed
    exact begun (WorkerCall.tick.inj (Option.some.inj (hi.symm.trans start)))
  have waiting (other : ∀ row request rest, phase ≠ .fetch row request rest) : ∀ id k response,
      answers (q, .turn i (.run w)) ≠ some (i, id, k, response) := by
    intro id k response answer
    obtain ⟨_, row, request, rest, _, here, _⟩ := answers_eq_some answer
    exact other row request rest (WorkerCall.tick.inj (Option.some.inj (hi.symm.trans here)))
  have settled (other : ∀ row outcome rest, phase ≠ .applyOutcome row outcome rest) :
      ∀ e ∈ log, ∀ id k response, answers e = some (i, id, k, response) →
        id ∉ phase.rows.map (·.deliveryId) := by
    intro e he id k response answer held
    obtain ⟨row, rest, same, _⟩ := (h.answered e he id k response answer).2 held
    exact other _ _ _ (WorkerCall.tick.inj same)
  have rowsOn {phase' : WorkerPhase} (rows : ∀ row ∈ phase'.rows, row ∈ phase.rows)
      (begun : phase ≠ .select) (begun' : phase' ≠ .select)
      (other : ∀ row outcome rest, phase ≠ .applyOutcome row outcome rest)
      (other' : ∀ row request rest, phase ≠ .fetch row request rest) :
      TickHistory (log ++ [(q, .turn i (.run w))]) i (.tick phase') := by
    refine h.goOn rows (fun same => begun' (WorkerCall.tick.inj same)) (quiet begun) ?_
    intro e he id k response answer held
    rcases List.mem_append.mp he with old | last
    · obtain ⟨row, hr, rfl⟩ := List.mem_map.mp held
      exact absurd (List.mem_map_of_mem (rows row hr)) (settled other e old _ k response answer)
    · obtain rfl := List.mem_singleton.mp last
      exact absurd answer (waiting other' id k response)
  cases ht with
  | idle => exact .idle rfl nofun
  | selected =>
    have last : (q, Act.turn i (.run w)) ∈ log ++ [(q, Act.turn i (.run w))] :=
      List.mem_append_right _ (List.mem_singleton_self _)
    have here : claims (q, .turn i (.run w)) = some (i, q.batch i w, w.dbNow) := by
      simp only [claims, hi]
    have unclaimed := h.unclaimed rfl
    refine ⟨nofun, fun row hr => ⟨_, last, _, _, here, hr⟩,
      fun e he rows time claimed row hr row' hr' same => ?_, fun e he id k response answer => ?_⟩
    · rcases List.mem_append.mp he with old | new
      · exact absurd claimed (unclaimed e old rows time)
      · obtain rfl := List.mem_singleton.mp new
        obtain ⟨_, batch⟩ := Prod.mk.inj (Option.some.inj (here.symm.trans claimed))
        obtain ⟨rfl, _⟩ := Prod.mk.inj batch
        exact eq_of_key (selectDue_keys leased.sound.wellFormed.keys _ _) hr' hr same
    · rcases List.mem_append.mp he with old | new
      · exact absurd rfl (h.answered e old id k response answer).1
      · obtain rfl := List.mem_singleton.mp new
        exact absurd answer (waiting (fun _ _ _ h => nomatch h) id k response)
  | leased =>
    exact rowsOn (fun _ hr => hr) (fun h => nomatch h) (fun h => nomatch h)
      (fun _ _ _ h => nomatch h) (fun _ _ _ h => nomatch h)
  | refused =>
    exact rowsOn (fun _ hr => hr) (fun h => nomatch h) (fun h => nomatch h)
      (fun _ _ _ h => nomatch h) (fun _ _ _ h => nomatch h)
  | posted =>
    exact rowsOn (fun _ hr => hr) (fun h => nomatch h) (fun h => nomatch h)
      (fun _ _ _ h => nomatch h) (fun _ _ _ h => nomatch h)
  | @answered row request rest =>
    refine h.goOn (fun _ hr => hr) nofun (quiet nofun) fun e he id k response answer held => ?_
    rcases List.mem_append.mp he with old | last
    · exact absurd held (settled (fun _ _ _ h => nomatch h) e old id k response answer)
    · obtain rfl := List.mem_singleton.mp last
      obtain ⟨w', row', request', rest', acts, here, same, _, rfl⟩ := answers_eq_some answer
      obtain rfl := WorkerMove.run.inj (Act.turn.inj acts).2
      obtain ⟨rfl, _, _⟩ := WorkerPhase.fetch.inj
        (WorkerCall.tick.inj (Option.some.inj (hi.symm.trans here)))
      exact ⟨row, rest, rfl, same⟩
  | @applied row outcome rest _ =>
    refine h.goOn (fun _ => List.mem_cons_of_mem _) nofun (quiet nofun)
      fun e he id k response answer held => ?_
    rcases List.mem_append.mp he with old | last
    · obtain ⟨row', rest', same, rfl⟩ :=
        (h.answered e old id k response answer).2 (List.mem_cons_of_mem _ held)
      obtain ⟨rfl, _, _⟩ := WorkerPhase.applyOutcome.inj (WorkerCall.tick.inj same)
      exact absurd held (List.nodup_cons.mp keys).1
    · obtain rfl := List.mem_singleton.mp last
      exact absurd answer (waiting (fun _ _ _ h => nomatch h) id k response)

end TickHistory

/-- Each tick of a single worker has such a history. -/
theorem tick_history {store : WorkerStore} (wf : store.WellFormed)
    (untried : ∀ d ∈ store.db.webhookDeliveries, d.attemptCount = 0) {log : WorkerLog}
    {q : WorkerPool} (run : WorkerRun W store log q) :
    ∀ i c, q.calls[i]? = some c → Sole log → TickHistory log i c := by
  have silent : ∀ {log : WorkerLog} {i : Nat} {c : WorkerCall}, c.rows = [] →
      (∀ e ∈ log, ∀ m, e.2 ≠ .turn i m) → TickHistory log i c := by
    intro log i c rows none
    refine ⟨fun _ e he rs time h => ?_, fun row hr => absurd (rows ▸ hr) List.not_mem_nil,
      fun _ _ _ _ _ _ _ row hr => absurd (rows ▸ hr) List.not_mem_nil, fun e he id k r h => ?_⟩
    · obtain ⟨w, acts, _⟩ := claims_eq_some h
      exact none e he _ acts
    · obtain ⟨w, _, _, _, acts, _⟩ := answers_eq_some h
      exact absurd acts (none e he _)
  refine Pool.call_history (K := fun log i c => Sole log → TickHistory log i c)
    ?frame ?first ?admitted ?spawned ?turned run
  case frame =>
    intro log q a i c aside K sole
    have h := K sole.of_append
    have old : ∀ {e}, e ∈ log ++ [(q, a)] → (∃ m, e.2 = .turn i m) → e ∈ log := by
      rintro e he ⟨m, acts⟩
      rcases List.mem_append.mp he with he | he
      · exact he
      · obtain rfl := List.mem_singleton.mp he
        exact absurd acts (aside m)
    refine ⟨fun start e he rs time claimed => ?_, fun row hr => ?_,
      fun e he rs time claimed => ?_, fun e he id k response answer => ?_⟩
    · obtain ⟨w, acts, _⟩ := claims_eq_some claimed
      exact h.unclaimed start e (old he ⟨_, acts⟩) rs time claimed
    · obtain ⟨e, he, found⟩ := h.batch row hr
      exact ⟨e, List.mem_append_left _ he, found⟩
    · obtain ⟨w, acts, _⟩ := claims_eq_some claimed
      exact h.only e (old he ⟨_, acts⟩) rs time claimed
    · obtain ⟨w, _, _, _, acts, _⟩ := answers_eq_some answer
      exact h.answered e (old he ⟨_, acts⟩) id k response answer
  case first => exact fun i c hc => by simp at hc
  case admitted =>
    intro d r c hc log i none _
    exact silent (by cases r <;> obtain rfl := Option.some.inj hc <;> rfl) none
  case spawned =>
    intro log q i c m t _ _ ht n hn
    cases WorkerCall.turn_cases ht <;> exact absurd hn List.not_mem_nil
  case turned =>
    intro log q i c m t run hi ht K sole
    have before := sole.of_append
    have h := K before
    obtain ⟨_, leased, _⟩ := WorkerPool.follows wf untried run before
    have turned := WorkerCall.turn_cases ht
    have failing : ∀ {f}, c.failed = some f → TickHistory (log ++ [(q, .turn i m)]) i f := by
      intro f hf
      refine .idle (WorkerCall.failed_rows hf) ?_
      cases c with
      | tick => exact WorkerPool.failed_tick hf ▸ (fun h => nomatch h)
      | commit =>
        obtain rfl := Option.some.inj (Option.ite_none_left_eq_some.mp hf).2
        exact fun h => nomatch h
    cases turned with
    | error hf => exact failing hf
    | lost _ hf => exact failing hf
    | ran hr =>
      cases WorkerCall.step_cases hr with
      | commit => exact .idle rfl nofun
      | tick step => exact h.tick leased hi step

/-! ## Settled attempts -/

/-- The outcome is in every row of the delivery that there is. -/
theorem applied_row {p q : WorkerPool} {i : Nat} {w : WorkerWorld} {row : DueRow}
    {outcome : DeliveryOutcome} {rest : List DueRow}
    (hs : p.step (webhookWorkers W) (.turn i (.run w)) = some q)
    (hi : p.calls[i]? = some (.tick (.applyOutcome row outcome rest))) {d : WebhookDelivery}
    (hd : d ∈ q.store.db.webhookDeliveries) (same : d.id = row.deliveryId) :
    ∃ d₀, d = applyOutcome w.now w.later (row.attemptCount + 1) outcome d₀ := by
  obtain ⟨c, t, hc, ht, rfl⟩ := Pool.step_turn hs
  obtain rfl := Option.some.inj (hc.symm.trans hi)
  have turned : WorkerTurn W p.store _ _ (.run w) t := WorkerCall.turn_cases ht
  cases turned with | ran hr =>
  cases WorkerCall.step_cases hr with | tick step =>
  cases step with | applied =>
  rcases mem_updateWhere_cases hd with ⟨d₀, _, _, rfl⟩ | ⟨_, missed⟩
  · exact ⟨d₀, rfl⟩
  · exact absurd same (of_decide_eq_false missed)

section

variable {store : WorkerStore} {log log₁ log₂ : WorkerLog} {p q : WorkerPool}
  {e : WorkerPool × Act WorkerRequest WorkerMove} {id : Id} {k : Nat}
  {response : Except Thrown Nat} {t : Time}

theorem jobEvents_append : jobEvents W id (log₁ ++ log₂) =
    jobEvents W id log₁ ++ jobEvents W id log₂ := List.filterMap_append

/-- The job of a delivery goes on from where it is. -/
theorem follows_on (wf : store.WellFormed)
    (untried : ∀ d ∈ store.db.webhookDeliveries, d.attemptCount = 0)
    (run : WorkerRun W store (log₁ ++ log₂) q) (sole : Sole (log₁ ++ log₂))
    {j : RetryJob WebhookDeliveryStatus}
    (before : (RetryJob.waiting 0 0).after webhookRetries (jobEvents W id log₁) = some j) :
    ∃ j', j.after webhookRetries (jobEvents W id log₂) = some j' ∧ q.Follows id j' := by
  obtain ⟨_, _, jobs⟩ := WorkerPool.follows wf untried run sole
  obtain ⟨j', after, follows⟩ := jobs id
  rw [jobEvents_append, RetryJob.after_append, before] at after
  exact ⟨j', after, follows⟩

/-- Where an attempt is settled, its tick and its job are at its verdict. -/
theorem Settles.settling (h : Settles log e id k response t) (wf : store.WellFormed)
    (untried : ∀ d ∈ store.db.webhookDeliveries, d.attemptCount = 0)
    (run : WorkerRun W store log e.1) (sole : Sole log) :
    ∃ i w row rest made, e.2 = .turn i (.run w) ∧ w.later = t ∧
      e.1.calls[i]? = some (.tick (.applyOutcome row (deliveryOutcome response) rest)) ∧
      row.deliveryId = id ∧ row.attemptCount + 1 = k ∧
      (RetryJob.waiting 0 0).after webhookRetries (jobEvents W id log) =
        some (.settling made (deliveryOutcome response).verdict) ∧
      ((deliveryOutcome response).verdict = .retriable → made = k) := by
  obtain ⟨i, recorded, e', he', answer⟩ := h
  obtain ⟨w, row, outcome, rest, acts, hi, same, number, now⟩ := records_eq_some recorded
  have history := tick_history wf untried run i _ hi sole
  have held : id ∈ (WorkerCall.tick (.applyOutcome row outcome rest)).rows.map (·.deliveryId) :=
    List.mem_map.mpr ⟨row, List.mem_cons_self, same⟩
  obtain ⟨row', rest', same', _⟩ := (history.answered e' he' id k response answer).2 held
  obtain ⟨rfl, rfl, rfl⟩ := WorkerPhase.applyOutcome.inj (WorkerCall.tick.inj same')
  obtain ⟨_, _, jobs⟩ := WorkerPool.follows wf untried run sole
  obtain ⟨j, after, follows⟩ := jobs id
  obtain ⟨made, rfl, counted⟩ := (follows.calls i _ hi).1 same
  exact ⟨i, w, row, rest, made, acts, now, hi, same, number, after,
    fun retriable => number ▸ counted retriable⟩

/-- And after the step the job is what the policy makes of it. -/
theorem Settles.settled (h : Settles log e id k response t) (wf : store.WellFormed)
    (untried : ∀ d ∈ store.db.webhookDeliveries, d.attemptCount = 0)
    (run : WorkerRun W store log e.1) (sole : Sole log) :
    ∃ made, (RetryJob.waiting 0 0).after webhookRetries (jobEvents W id (log ++ [e])) =
        some (webhookRetries.settle made t (deliveryOutcome response).verdict) ∧
      ((deliveryOutcome response).verdict = .retriable → made = k) := by
  obtain ⟨i, w, row, rest, made, acts, rfl, hi, same, _, before, counted⟩ :=
    h.settling wf untried run sole
  have event : jobEvent W id e = some (.written w.later) := by
    unfold jobEvent
    simp only [acts, hi, WorkerPhase.event, if_pos same]
  refine ⟨made, ?_, counted⟩
  rw [jobEvents_append, RetryJob.after_append, before, jobEvents,
    List.filterMap_cons_some event]
  rfl

/-! ## The schedule -/

theorem numbered_attempts (wf : store.WellFormed)
    (untried : ∀ d ∈ store.db.webhookDeliveries, d.attemptCount = 0)
    (run : WorkerRun W store log q) (sole : Sole log) (id : Id) :
    ∃ k ≤ maxDeliveryAttempts, attempts W id log = List.range' 1 k := by
  obtain ⟨_, _, jobs⟩ := WorkerPool.follows wf untried run sole
  obtain ⟨j, after, _⟩ := jobs id
  have within := RetryJob.after_within (Nat.zero_le _) after
  refine ⟨j.made, within.made_le, ?_⟩
  rw [attempts_eq sole.worker]
  exact (RetryJob.after_attempts after).2

/-- A job that has ended is in no one's hands. -/
theorem WorkerPool.Follows.ended_row {ending : WebhookDeliveryStatus}
    (h : q.Follows id (.ended k ending)) {d : WebhookDelivery}
    (hd : d ∈ q.store.db.webhookDeliveries) (same : d.id = id) : d.status = ending := by
  refine (h.row (fun i c hc held => ?_) d hd same).1
  obtain ⟨row, hr, key⟩ := List.mem_map.mp held
  have agrees := h.calls i c hc
  cases c with
  | commit => exact List.not_mem_nil hr
  | tick phase =>
    cases phase with
    | select => exact List.not_mem_nil hr
    | failed => exact List.not_mem_nil hr
    | lease rows => exact nomatch agrees row hr key
    | deliver rows => exact nomatch agrees row hr key
    | fetch first request rest =>
      rcases List.mem_cons.mp hr with rfl | later
      · exact nomatch agrees.1 key
      · exact nomatch agrees.2 row later key
    | applyOutcome first outcome rest =>
      rcases List.mem_cons.mp hr with rfl | later
      · obtain ⟨_, impossible, _⟩ := agrees.1 key
        exact nomatch impossible
      · exact nomatch agrees.2 row later key

/-- An ending verdict is in the row from then on. -/
theorem Settles.ended (h : Settles log₁ e id k response t) (wf : store.WellFormed)
    (untried : ∀ d ∈ store.db.webhookDeliveries, d.attemptCount = 0)
    (run : WorkerRun W store (log₁ ++ e :: log₂) q) (sole : Sole (log₁ ++ e :: log₂))
    {ending : WebhookDeliveryStatus} (ends : ∀ made,
      ((deliveryOutcome response).verdict = .retriable → made = k) →
      webhookRetries.settle made t (deliveryOutcome response).verdict = .ended made ending)
    {u : WorkerPool} (hu : u ∈ moments log₂ q) {d : WebhookDelivery}
    (hd : d ∈ u.store.db.webhookDeliveries) (same : d.id = id) : d.status = ending := by
  obtain ⟨v, before, hs, after⟩ := run.split_at rfl
  obtain ⟨log₃, log₄, rfl, run₃⟩ := after.moment hu
  have whole : WorkerRun W store (log₁ ++ [e] ++ log₃) u := (before.next hs).trans run₃
  have split : log₁ ++ e :: (log₃ ++ log₄) = log₁ ++ [e] ++ log₃ ++ log₄ := by simp
  have sole₃ : Sole (log₁ ++ [e] ++ log₃) := (split ▸ sole).of_append
  obtain ⟨made, job, counted⟩ := h.settled wf untried before sole₃.of_append.of_append
  rw [ends made counted] at job
  obtain ⟨j, later, follows⟩ := follows_on wf untried whole sole₃ job
  obtain ⟨_, rfl⟩ := RetryJob.after_ended later
  exact follows.ended_row hd same

/-- The last attempt is the one after which the table has no delay. -/
theorem Settles.last (h : Settles log e id k response t) (wf : store.WellFormed)
    (untried : ∀ d ∈ store.db.webhookDeliveries, d.attemptCount = 0)
    (run : WorkerRun W store log e.1) (sole : Sole log)
    (retriable : (deliveryOutcome response).verdict = .retriable) :
    0 < k ∧ (retryDelaySeconds[k - 1]? = none ↔ k = maxDeliveryAttempts) := by
  obtain ⟨_, _, row, _, made, _, _, _, _, number, after, counted⟩ :=
    h.settling wf untried run sole
  have within := RetryJob.after_within (Nat.zero_le _) after
  rw [retriable, counted retriable] at within
  have table : webhookRetries.delays[k - 1]? = none ↔ retryDelaySeconds[k - 1]? = none := by
    rw [show webhookRetries.delays[k - 1]? = retryDelaySeconds[k - 1]?.map (· * 1000) from
      List.getElem?_map .., Option.map_eq_none_iff]
  exact ⟨number ▸ Nat.succ_pos _, table.symm.trans within.exhausted⟩

/-- A failure that may be retried schedules the next attempt, or it was the last one. -/
theorem Settles.retried (h : Settles log e id k response t) (wf : store.WellFormed)
    (untried : ∀ d ∈ store.db.webhookDeliveries, d.attemptCount = 0)
    (run : WorkerRun W store log e.1) (sole : Sole log)
    (retriable : (deliveryOutcome response).verdict = .retriable)
    {v : WorkerPool} (hs : e.1.step (webhookWorkers W) e.2 = some v) {d : WebhookDelivery}
    (hd : d ∈ v.store.db.webhookDeliveries) (same : d.id = id) :
    (d.status = .abandoned ↔ k = maxDeliveryAttempts) ∧
      (k ≠ maxDeliveryAttempts → d.status = .pending ∧
        ∃ delay, retryDelaySeconds[k - 1]? = some delay ∧ d.nextAttemptAt = t + delay * 1000) := by
  obtain ⟨_, last⟩ := h.last wf untried run sole retriable
  obtain ⟨i, w, row, rest, _, acts, rfl, hi, key, rfl, _, _⟩ := h.settling wf untried run sole
  rw [acts] at hs
  obtain ⟨d₀, rfl⟩ := applied_row hs hi hd (same.trans key.symm)
  rw [← last, Nat.add_sub_cancel]
  rcases applyOutcome_retriable _ w.later row.attemptCount retriable d₀ with
    ⟨delay, table, pending, due⟩ | ⟨table, abandoned⟩
  · rw [table, pending]
    exact ⟨⟨nofun, nofun⟩, fun _ => ⟨rfl, delay, rfl, due⟩⟩
  · rw [abandoned]
    exact ⟨⟨fun _ => table, fun _ => rfl⟩, fun other => absurd (last.mp table) other⟩

/-- Where a row is claimed, its job has been waiting, and is claimed by the step. -/
theorem claimed_job (wf : store.WellFormed)
    (untried : ∀ d ∈ store.db.webhookDeliveries, d.attemptCount = 0)
    (run : WorkerRun W store log e.1) (sole : Sole log) {i : Nat} {rows : List DueRow}
    {time : Time} (claimed : claims e = some (i, rows, time)) {row : DueRow} (hr : row ∈ rows) :
    ∃ due ≤ time, (RetryJob.waiting 0 0).after webhookRetries
        (jobEvents W row.deliveryId log) = some (.waiting row.attemptCount due) ∧
      jobEvent W row.deliveryId e = some (.claimed time) := by
  obtain ⟨w, acts, hi, rfl, rfl⟩ := claims_eq_some claimed
  obtain ⟨single, leased, jobs⟩ := WorkerPool.follows wf untried run sole
  obtain ⟨j, after, follows⟩ := jobs row.deliveryId
  obtain ⟨due, rfl, late, _⟩ := follows.claimed single leased.sound hi hr rfl
  refine ⟨due, late, after, ?_⟩
  unfold jobEvent
  simp only [acts, hi, WorkerPhase.event, if_pos (List.mem_map_of_mem hr)]

/-- The delivery is not claimed for the next attempt before it is due. -/
theorem Settles.waits (h : Settles log₁ e id k response t) (wf : store.WellFormed)
    (untried : ∀ d ∈ store.db.webhookDeliveries, d.attemptCount = 0)
    (run : WorkerRun W store (log₁ ++ e :: log₂) q) (sole : Sole (log₁ ++ e :: log₂))
    (retriable : (deliveryOutcome response).verdict = .retriable)
    {e' : WorkerPool × Act WorkerRequest WorkerMove} (he' : e' ∈ log₁ ++ e :: log₂) {i : Nat}
    {rows : List DueRow} {time : Time} (claimed : claims e' = some (i, rows, time)) {row : DueRow}
    (hr : row ∈ rows) (same : row.deliveryId = id) (next : row.attemptCount = k) :
    ∃ delay, retryDelaySeconds[k - 1]? = some delay ∧ t + delay * 1000 ≤ time := by
  subst same next
  obtain ⟨v, before, hs, after⟩ := run.split_at rfl
  have sole₁ : Sole log₁ := sole.of_append
  obtain ⟨positive, last⟩ := h.last wf untried before sole₁ retriable
  rcases List.mem_append.mp he' with earlier | he'
  · -- the job is past this wait
    obtain ⟨log₃, u, log₄, rfl, to_e', hs', from_e'⟩ := before.split earlier
    obtain ⟨due, _, job, event⟩ := claimed_job wf untried to_e' sole₁.of_append claimed hr
    obtain ⟨_, _, _, _, made, _, _, _, _, _, settling, counted⟩ :=
      h.settling wf untried before sole₁
    rw [jobEvents_append, RetryJob.after_append, job, Option.bind_some, jobEvents,
      List.filterMap_cons_some event, RetryJob.after_cons, Option.bind_eq_some_iff] at settling
    obtain ⟨j, claim, rest⟩ := settling
    cases RetryJob.next_step claim
    rw [retriable, counted retriable] at rest
    have past := RetryJob.after_invariant rest (Nat.le_refl _) fun _ _ _ => RetryJob.Past.next
    exact absurd (past rfl) (Nat.lt_irrefl _)
  rcases List.mem_cons.mp he' with rfl | later
  · obtain ⟨i', recorded, _⟩ := h
    obtain ⟨_, acts, hi, _⟩ := claims_eq_some claimed
    obtain ⟨_, _, _, _, acts', hi', _⟩ := records_eq_some recorded
    obtain ⟨rfl, _⟩ := Act.turn.inj (acts.symm.trans acts')
    cases hi.symm.trans hi'
  · obtain ⟨log₃, u, log₄, rfl, to_e', _, _⟩ := after.split later
    have whole : WorkerRun W store (log₁ ++ [e] ++ log₃) e'.1 := (before.next hs).trans to_e'
    have split : log₁ ++ e :: (log₃ ++ e' :: log₄) = log₁ ++ [e] ++ log₃ ++ e' :: log₄ := by simp
    have sole₃ : Sole (log₁ ++ [e] ++ log₃) := (split ▸ sole).of_append
    obtain ⟨due, late, job, _⟩ := claimed_job wf untried whole sole₃ claimed hr
    obtain ⟨made, settled, counted⟩ := h.settled wf untried before sole₁
    obtain ⟨n, number⟩ := Nat.exists_eq_succ_of_ne_zero (Nat.ne_of_gt positive)
    rw [jobEvents_append, RetryJob.after_append, settled, Option.bind_some, retriable,
      counted retriable, number, webhookRetries_settle] at job
    rw [number, Nat.succ_sub_one]
    cases table : retryDelaySeconds[n]? with
    | none =>
      rw [table] at job
      cases (RetryJob.after_ended job).2
    | some delay =>
      rw [table] at job
      obtain rfl := RetryJob.after_waiting job
      exact ⟨delay, rfl, late⟩

/-! ## Requests -/

/-- A request is for a row of the batch of its tick, whose delivery is pending. -/
theorem posted_row (wf : store.WellFormed)
    (untried : ∀ d ∈ store.db.webhookDeliveries, d.attemptCount = 0)
    (run : WorkerRun W store log e.1) (sole : Sole log) {i n : Nat}
    (posted : posts W e = some (i, id, n)) :
    ∃ row rest, e.1.calls[i]? = some (.tick (.deliver (row :: rest))) ∧ row.deliveryId = id ∧
      row.attemptCount + 1 = n ∧ row.enabled = true ∧
      (∀ d ∈ e.1.store.db.webhookDeliveries, d.id = id → d.status = .pending) ∧
      ∃ e' ∈ log, ∃ rows time, claims e' = some (i, rows, time) ∧ row ∈ rows := by
  obtain ⟨m, w, row, rest, request, _, _, hi, decided, rfl, rfl⟩ := WorkerPool.posts_eq_some posted
  have head : row ∈ (WorkerCall.tick (.deliver (row :: rest))).rows := List.mem_cons_self
  obtain ⟨_, leased, _⟩ := WorkerPool.follows wf untried run sole
  refine ⟨row, rest, hi, rfl, rfl, (deliver_ok decided).1, fun d hd same => ?_,
    (tick_history wf untried run i _ hi sole).batch row head⟩
  exact (leased.sound.claimed i _ hi row head).pending d hd same
    ((leased.holds i _ hi).untried row head d hd same)

/-- No request is for a row whose endpoint was read as disabled. -/
theorem disabled_unposted (wf : store.WellFormed)
    (untried : ∀ d ∈ store.db.webhookDeliveries, d.attemptCount = 0)
    (run : WorkerRun W store log q) (sole : Sole log) (he : e ∈ log) {i : Nat}
    {rows : List DueRow} {time : Time} (claimed : claims e = some (i, rows, time)) {row : DueRow}
    (hr : row ∈ rows) (disabled : row.enabled = false)
    {e' : WorkerPool × Act WorkerRequest WorkerMove} (he' : e' ∈ log) {n : Nat} :
    posts W e' ≠ some (i, row.deliveryId, n) := by
  intro posted
  obtain ⟨log₁, v, log₂, rfl, before, hs, after⟩ := run.split he'
  have sole₁ : Sole log₁ := sole.of_append
  obtain ⟨row', rest, hi, same, _, enabled, _, e'', he'', rows', time', claimed', _⟩ :=
    posted_row wf untried before sole₁ posted
  rcases List.mem_append.mp he with earlier | he
  · have only := (tick_history wf untried before i _ hi sole₁).only e earlier rows time claimed
    obtain rfl := only row hr row' List.mem_cons_self same
    exact nomatch disabled.symm.trans enabled
  rcases List.mem_cons.mp he with rfl | later
  · obtain ⟨_, _, start, _⟩ := claims_eq_some claimed
    exact nomatch start.symm.trans hi
  · -- the tick would select a second time
    obtain ⟨log₃, _, log₄, rfl, to_e, _, _⟩ := after.split later
    have whole : WorkerRun W store (log₁ ++ [e'] ++ log₃) e.1 := (before.next hs).trans to_e
    have split : log₁ ++ e' :: (log₃ ++ e :: log₄) = log₁ ++ [e'] ++ log₃ ++ e :: log₄ := by simp
    have sole₃ : Sole (log₁ ++ [e'] ++ log₃) := (split ▸ sole).of_append
    obtain ⟨_, _, start, _⟩ := claims_eq_some claimed
    refine (tick_history wf untried whole i _ start sole₃).unclaimed rfl e'' ?_ rows' time' claimed'
    exact List.mem_append_left _ (List.mem_append_left _ he'')

/-- No one keeps a single worker from going on with its rows. -/
theorem tick_proceeds (single : q.Single) {i : Nat} {c : WorkerCall} (hi : q.calls[i]? = some c)
    (rows : c.rows ≠ []) (w : WorkerWorld) :
    (q.step (webhookWorkers W) (.turn i (.run w))).isSome = true := by
  suffices moves : (c.step W q.store (fun id => (q.others i).any fun o => id ∈ o.locks) w).isSome by
    obtain ⟨r, hr⟩ := Option.isSome_iff_exists.mp moves
    have turned : (webhookWorkers W).turn q.store (q.others i) c (.run w) =
        some ⟨r.1, r.2, []⟩ := congrArg (Option.map _) hr
    simp only [Pool.step, hi, turned, Option.map_some, Option.isSome_some]
  cases c with
  | commit => exact absurd rfl rows
  | tick phase =>
    simp only [WorkerCall.step, Option.isSome_map]
    cases phase with
    | select => exact absurd rfl rows
    | failed => exact absurd rfl rows
    | lease => rfl
    | fetch => rfl
    | deliver batch =>
      cases batch with
      | nil => exact absurd rfl rows
      | cons row rest =>
        simp only [webhookTick]
        split <;> rfl
    | applyOutcome row outcome rest =>
      have free : ((q.others i).any fun o => row.deliveryId ∈ o.locks) = false := by
        rw [List.any_eq_false]
        intro o ho locked
        obtain ⟨k, ne, hk⟩ := Pool.mem_others.mp ho
        have idle := single.others hi rfl ne hk
        rw [WorkerCall.locks_of_idle idle] at locked
        exact List.not_mem_nil (of_decide_eq_true locked)
      simp only [webhookTick, free]
      rfl

end

/-- In every run of a single worker that does not crash, the attempts of each delivery are as they
should be. -/
theorem attempts_scheduled {store : WorkerStore} (wf : store.WellFormed)
    (untried : ∀ d ∈ store.db.webhookDeliveries, d.attemptCount = 0) {log : WorkerLog}
    {q : WorkerPool} (run : WorkerRun W store log q) (sole : Sole log) :
    AttemptSchedule W log q where
  numbered := numbered_attempts wf untried run sole
  ends log₁ e log₂ split id k response t settles u hu d hd same := by
    subst split
    have verdict := deliveryOutcome_verdict response
    refine ⟨fun success => ?_, fun failure final => ?_, fun retriable last => ?_⟩
    · rw [success, if_pos rfl] at verdict
      refine settles.ended wf untried run sole (fun made _ => ?_) hu hd same
      rw [verdict]
      rfl
    · rw [failure, final, if_neg Bool.false_ne_true, if_neg Bool.false_ne_true] at verdict
      refine settles.ended wf untried run sole (fun made _ => ?_) hu hd same
      rw [verdict]
      rfl
    · have again := mayRetry_verdict retriable
      refine settles.ended wf untried run sole (fun made counted => ?_) hu hd same
      rw [again, counted again, last]
      rfl
  retried log₁ e log₂ split id k response t settles retriable v hs d hd same := by
    subst split
    obtain ⟨_, before, _, _⟩ := run.split_at rfl
    exact settles.retried wf untried before sole.of_append (mayRetry_verdict retriable) hs hd same
  waits log₁ e log₂ split id k response t settles retriable e' he' i rows time claimed row hr same
      next := by
    subst split
    exact settles.waits wf untried run sole (mayRetry_verdict retriable) he' claimed hr same next
  claimed log₁ e log₂ split i id attempt posted := by
    subst split
    obtain ⟨_, before, _, _⟩ := run.split_at rfl
    obtain ⟨row, _, _, same, number, _, _, e', he', rows, time, claimed, hr⟩ :=
      posted_row wf untried before sole.of_append posted
    exact ⟨e', he', rows, time, claimed, row, hr, same, number⟩
  pending e he i id attempt posted := by
    obtain ⟨log₁, _, log₂, rfl, before, _, _⟩ := run.split he
    obtain ⟨_, _, _, _, _, _, pending, _⟩ := posted_row wf untried before sole.of_append posted
    exact pending
  enabled e he i rows time claimed row hr disabled e' he' attempt :=
    disabled_unposted wf untried run sole he claimed hr disabled he'
  proceeds i c hi rows w := tick_proceeds (WorkerPool.follows wf untried run sole).1 hi rows w

namespace WorkerScript

/-- One worker tries the delivery twice, in two ticks. -/
def alone : List (Act WorkerRequest WorkerMove) :=
  [.arrive .tick] ++ delivers 0 60 (.ok 503) ++ [.arrive .tick] ++ delivers 1 91 (.ok 200)

/-- Nothing is committed at this step. -/
def commitsNothing (e : WorkerPool × Act WorkerRequest WorkerMove) : Bool :=
  match e.2 with
  | .arrive (.commit _) => false
  | _ => true

theorem alone_run : ∃ log q, WorkerRun platform store log q ∧
    (∀ e ∈ log, singleWorker e = true ∧ commitsNothing e = true) ∧
    attempts platform delivery.id log = [1, 2] ∧
    q.store.db.webhookDeliveries.map (·.status) = [.delivered] :=
  exists_runFrom platform store alone (by decide +kernel)

end WorkerScript

/-- The first attempt is answered 503, the second one 200. -/
theorem attempts_scheduled_script :
    ∃ log q, WorkerRun WorkerScript.platform WorkerScript.store log q ∧
      attempts WorkerScript.platform WorkerScript.delivery.id log = [1, 2] ∧
      (q.store.db.webhookDeliveries.map (·.status)) = [.delivered] ∧
      AttemptSchedule WorkerScript.platform log q := by
  obtain ⟨log, q, run, quiet, posted, delivered⟩ := WorkerScript.alone_run
  refine ⟨log, q, run, posted, delivered,
    attempts_scheduled ⟨by decide +kernel, by decide +kernel⟩ (by decide +kernel) run
      ⟨fun e he => (quiet e he).1, fun e he w arrived => ?_⟩⟩
  have none := (quiet e he).2
  rw [WorkerScript.commitsNothing, arrived] at none
  exact nomatch none

end Syrotp
