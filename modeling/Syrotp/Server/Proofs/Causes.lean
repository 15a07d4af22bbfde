import Syrotp.Server.Proofs.Delivery
import Syrotp.Server.Proofs.Writes

/-!
# Every outcome has a cause

Whatever workers crash, overlap or write late: a delivery that is pending is due again within the
longest delay from its last write in the log, and one that is not was put there by an attempt that
really ended so.
-/

namespace Syrotp

variable {W : WebhookPlatform}

/-! ## What the log shows -/

/-- The largest of the lease and the retry delays. -/
def longestDelaySeconds : Nat := (inFlightLeaseSeconds :: retryDelaySeconds).foldr max 0

/-- A tick selected this row. -/
def Selects (log : WorkerLog) (row : DueRow) : Prop :=
  ∃ s i w locked, (s, Act.turn i (.run w)) ∈ log ∧ s.calls[i]? = some (.tick .select) ∧
    row ∈ selectDue s.store.db locked w

/-- A request for this row was answered. -/
def Answered (log : WorkerLog) (row : DueRow) (response : Except Thrown Nat) : Prop :=
  ∃ s i w request rest, (s, Act.turn i (.run w)) ∈ log ∧
    s.calls[i]? = some (.tick (.fetch row request rest)) ∧ w.response = response

/-- The outcome of this row was clear without a request. -/
def Refused (W : WebhookPlatform) (log : WorkerLog) (row : DueRow) (outcome : DeliveryOutcome) :
    Prop :=
  ∃ s i w rest, (s, Act.turn i (.run w)) ∈ log ∧
    s.calls[i]? = some (.tick (.deliver (row :: rest))) ∧
    deliver W w.now row (row.attemptCount + 1) = .error outcome

/-- An attempt of this row ended so. -/
def Ended (W : WebhookPlatform) (log : WorkerLog) (row : DueRow) (outcome : DeliveryOutcome) :
    Prop :=
  Refused W log row outcome ∨ ∃ response, Answered log row response ∧
    outcome = deliveryOutcome response

/-- A request for the delivery was answered with success. -/
def AnsweredOk (log : WorkerLog) (id : Id) : Prop :=
  ∃ row status, row.deliveryId = id ∧ Answered log row (.ok status) ∧ 200 ≤ status ∧ status < 300

/-- An attempt of the delivery ended in an outcome that is not retried. -/
def EndedPermanently (W : WebhookPlatform) (log : WorkerLog) (id : Id) : Prop :=
  ∃ row reason status message, row.deliveryId = id ∧
    Ended W log row (.permanent reason status message)

/-- The sixth attempt of the delivery failed. -/
def SixthFailed (log : WorkerLog) (id : Id) : Prop :=
  ∃ row response reason status message, row.deliveryId = id ∧ row.attemptCount + 1 = 6 ∧
    Answered log row response ∧ deliveryOutcome response = .retry reason status message

/-- A tick read the endpoint of the delivery as disabled. -/
def ReadDisabled (log : WorkerLog) (id : Id) : Prop :=
  ∃ row, row.deliveryId = id ∧ Selects log row ∧ row.enabled = false

/-- The last reading of the process clock in a step. -/
def WorkerWorld.last (w : WorkerWorld) : Time := max w.now w.later

/-- When the next statement of a call writes the delivery: at its last reading of the clock, and for
the insertion of the row at its `created_at`. -/
def WorkerCall.writtenAt (id : Id) (w : WorkerWorld) : WorkerCall → Option Time
  | .tick (.lease rows) => if id ∈ rows.map (·.deliveryId) then some w.last else none
  | .tick (.applyOutcome row _ _) => if row.deliveryId = id then some w.last else none
  | .commit (.resolveVerification _ _ deliveries _) false =>
    (deliveries.find? fun d => d.id = id).map (·.createdAt)
  | _ => none

/-- When a logged step writes the delivery. -/
def writeTime (id : Id) (e : WorkerPool × Act WorkerRequest WorkerMove) : Option Time :=
  match e.2 with
  | .turn i m => m.world?.bind fun w => e.1.calls[i]?.bind fun c => c.writtenAt id w
  | .arrive _ => none

/-- When the delivery was last written. -/
def lastWrite (id : Id) (log : WorkerLog) : Option Time := (log.filterMap (writeTime id)).getLast?

/-- Pending and due again in time, or terminal for a reason. -/
def Explained (W : WebhookPlatform) (log : WorkerLog) (d : WebhookDelivery) : Prop :=
  match d.status with
  | .pending => d.attemptCount < maxDeliveryAttempts ∧
      ∃ t ∈ lastWrite d.id log, d.nextAttemptAt ≤ t + longestDelaySeconds * 1000
  | .delivered => AnsweredOk log d.id
  | .failed => EndedPermanently W log d.id
  | .abandoned => SixthFailed log d.id ∨ ReadDisabled log d.id

/-- A transaction inserts deliveries only as `emitVerificationEventInTx` makes them. -/
def Write.Emits (w : Write) : Prop :=
  ∀ row event deliveries inbound, w = .resolveVerification row event deliveries inbound →
    ∃ (eventType : VerificationEventType) (eventId : Id) (t : Time) (ds : List (Id × Id)),
      deliveries = ds.map (deliveryRow eventType eventId t)

/-- As every transaction of the server does. -/
theorem Justified.emits {env : Env} {db : Db} {w : Write} (J : Justified env db w) : w.Emits := by
  rintro row event deliveries inbound rfl
  obtain ⟨_, _, eventType, eventId, t, ds, _, _, _, _, _, same⟩ := J.resolve
  exact ⟨eventType, eventId, t, ds, same⟩

section Later

variable {log log' : WorkerLog}

theorem Selects.mono {row : DueRow} (h : Selects log row) (sub : ∀ e ∈ log, e ∈ log') :
    Selects log' row := by
  obtain ⟨s, i, w, locked, logged, h⟩ := h
  exact ⟨s, i, w, locked, sub _ logged, h⟩

theorem Answered.mono {row : DueRow} {response : Except Thrown Nat}
    (h : Answered log row response) (sub : ∀ e ∈ log, e ∈ log') :
    Answered log' row response := by
  obtain ⟨s, i, w, request, rest, logged, h⟩ := h
  exact ⟨s, i, w, request, rest, sub _ logged, h⟩

theorem Ended.mono {row : DueRow} {outcome : DeliveryOutcome} (h : Ended W log row outcome)
    (sub : ∀ e ∈ log, e ∈ log') : Ended W log' row outcome := by
  rcases h with ⟨s, i, w, rest, logged, h⟩ | ⟨response, answered, h⟩
  · exact .inl ⟨s, i, w, rest, sub _ logged, h⟩
  · exact .inr ⟨response, answered.mono sub, h⟩

theorem SixthFailed.mono {id : Id} (h : SixthFailed log id) (sub : ∀ e ∈ log, e ∈ log') :
    SixthFailed log' id := by
  obtain ⟨row, response, reason, status, message, id, sixth, answered, h⟩ := h
  exact ⟨row, response, reason, status, message, id, sixth, answered.mono sub, h⟩

theorem ReadDisabled.mono {id : Id} (h : ReadDisabled log id) (sub : ∀ e ∈ log, e ∈ log') :
    ReadDisabled log' id := by
  obtain ⟨row, id, read, h⟩ := h
  exact ⟨row, id, read.mono sub, h⟩

theorem AnsweredOk.mono {id : Id} (h : AnsweredOk log id) (sub : ∀ e ∈ log, e ∈ log') :
    AnsweredOk log' id := by
  obtain ⟨row, status, id, answered, ok⟩ := h
  exact ⟨row, status, id, answered.mono sub, ok⟩

theorem EndedPermanently.mono {id : Id} (h : EndedPermanently W log id)
    (sub : ∀ e ∈ log, e ∈ log') : EndedPermanently W log' id := by
  obtain ⟨row, reason, status, message, id, ended⟩ := h
  exact ⟨row, reason, status, message, id, ended.mono sub⟩

/-- A delivery stays explained as long as it is not written. -/
theorem Explained.later {d : WebhookDelivery} (h : Explained W log d)
    (sub : ∀ e ∈ log, e ∈ log') (same : lastWrite d.id log' = lastWrite d.id log) :
    Explained W log' d := by
  cases status : d.status with
  | pending =>
    simp only [Explained, status] at h ⊢
    rw [same]
    exact h
  | delivered =>
    simp only [Explained, status] at h ⊢
    exact h.mono sub
  | failed =>
    simp only [Explained, status] at h ⊢
    exact h.mono sub
  | abandoned =>
    simp only [Explained, status] at h ⊢
    exact h.imp (·.mono sub) (·.mono sub)

end Later

/-! ## Outcomes -/

theorem deliveryOutcome_delivered {response : Except Thrown Nat} {status : Nat}
    (h : deliveryOutcome response = .delivered status) :
    response = .ok status ∧ 200 ≤ status ∧ status < 300 := by
  unfold deliveryOutcome at h
  split at h
  · exact nomatch h
  · split at h
    · next ok =>
      obtain rfl := DeliveryOutcome.delivered.inj h
      exact ⟨rfl, ok⟩
    · split at h
      · exact nomatch h
      · split at h
        · exact nomatch h
        · split at h <;> exact nomatch h

theorem deliveryOutcome_ne_disabled {response : Except Thrown Nat} :
    deliveryOutcome response ≠ .endpointDisabled := by
  unfold deliveryOutcome
  split
  · exact nofun
  · split
    · exact nofun
    · split
      · exact nofun
      · split
        · exact nofun
        · split <;> exact nofun

/-- A retry is scheduled after one of the delays. -/
theorem nextRetryDelay_le {attempt delay : Nat} (h : nextRetryDelaySeconds attempt = some delay) :
    attempt < maxDeliveryAttempts ∧ delay ≤ longestDelaySeconds := by
  unfold nextRetryDelaySeconds at h
  split at h
  · exact nomatch h
  · next n =>
    rw [Option.ite_none_left_eq_some] at h
    obtain ⟨below, h⟩ := h
    have bound : ∀ x ∈ retryDelaySeconds, x ≤ longestDelaySeconds := by decide
    exact ⟨Nat.lt_of_not_le below, bound delay (List.mem_of_getElem? h)⟩

/-- No retry is scheduled from the sixth attempt on. -/
theorem nextRetryDelay_none {n : Nat} (h : nextRetryDelaySeconds (n + 1) = none) :
    maxDeliveryAttempts ≤ n + 1 := by
  by_cases spent : maxDeliveryAttempts ≤ n + 1
  · exact spent
  · have beyond : retryDelaySeconds[n]? = none := by
      simpa only [nextRetryDelaySeconds, if_neg spent] using h
    have : retryDelaySeconds.length ≤ n := List.getElem?_eq_none_iff.mp beyond
    exact Nat.succ_le_succ this

/-- What is written back is explained, when the attempt ended so. -/
theorem applyOutcome_explained {log : WorkerLog} {now later : Time} {row : DueRow}
    {outcome : DeliveryOutcome} {d : WebhookDelivery} (key : d.id = row.deliveryId)
    (read : Selects log row) (budget : row.attemptCount < maxDeliveryAttempts)
    (ended : Ended W log row outcome) (written : lastWrite d.id log = some (max now later)) :
    Explained W log (applyOutcome now later (row.attemptCount + 1) outcome d) := by
  cases outcome with
  | delivered status =>
    rcases ended with ⟨_, _, _, _, _, _, refused⟩ | ⟨response, answered, same⟩
    · rcases deliver_error refused with ⟨impossible, _⟩ | ⟨_, _, _, impossible⟩
      · exact nomatch impossible
      · exact nomatch impossible
    · obtain ⟨rfl, ok⟩ := deliveryOutcome_delivered same.symm
      exact ⟨row, status, key.symm, answered, ok⟩
  | endpointDisabled =>
    rcases ended with ⟨_, _, _, _, _, _, refused⟩ | ⟨response, _, same⟩
    · rcases deliver_error refused with ⟨_, disabled⟩ | ⟨_, _, _, impossible⟩
      · exact .inr ⟨row, key.symm, read, disabled⟩
      · exact nomatch impossible
    · exact absurd same.symm deliveryOutcome_ne_disabled
  | permanent reason status message => exact ⟨row, reason, status, message, key.symm, ended⟩
  | retry reason status message =>
    have last : maxDeliveryAttempts ≤ row.attemptCount + 1 → SixthFailed log d.id := by
      intro spent
      rcases ended with ⟨_, _, _, _, _, _, refused⟩ | ⟨response, answered, same⟩
      · rcases deliver_error refused with ⟨impossible, _⟩ | ⟨_, _, _, impossible⟩
        · exact nomatch impossible
        · exact nomatch impossible
      · refine ⟨row, response, reason, status, message, key.symm, ?_, answered, same.symm⟩
        exact Nat.le_antisymm budget spent
    unfold applyOutcome
    dsimp only
    split
    · next none =>
      exact .inl (last (nextRetryDelay_none none))
    · next delay some =>
      obtain ⟨below, bounded⟩ := nextRetryDelay_le some
      split
      · next spent => exact .inl (last spent)
      · exact ⟨below, _, written, Nat.add_le_add (Nat.le_max_right now later)
          (Nat.mul_le_mul_right 1000 bounded)⟩

/-! ## Steps -/

/-- What the log shows of the work of a call. -/
structure WorkerCall.Backed (W : WebhookPlatform) (log : WorkerLog) (c : WorkerCall) : Prop where
  read : ∀ row ∈ c.rows, Selects log row ∧ row.attemptCount < maxDeliveryAttempts
  ended : ∀ row outcome rest, c = .tick (.applyOutcome row outcome rest) →
    Ended W log row outcome
  emits : ∀ w isDone, c = .commit w isDone → w.Emits

theorem WorkerCall.Backed.mono {log log' : WorkerLog} {c : WorkerCall} (h : c.Backed W log)
    (sub : ∀ e ∈ log, e ∈ log') : c.Backed W log' where
  read row hr := ⟨(h.read row hr).1.mono sub, (h.read row hr).2⟩
  ended row outcome rest same := (h.ended row outcome rest same).mono sub
  emits := h.emits

theorem WorkerCall.failed_backed {log : WorkerLog} {c f : WorkerCall} (h : c.Backed W log)
    (failed : c.failed = some f) : f.Backed W log := by
  refine ⟨fun row hr => ?_, fun row outcome rest same => ?_, fun w isDone same => ?_⟩
  · rw [WorkerCall.failed_rows failed] at hr
    exact absurd hr List.not_mem_nil
  · subst same
    exact absurd (WorkerCall.failed_rows failed) (List.cons_ne_nil _ _)
  · subst same
    cases c with
    | tick phase => simp [WorkerCall.failed] at failed
    | commit w' wasDone =>
      simp only [WorkerCall.failed, Option.ite_none_left_eq_some, Option.some.injEq,
        WorkerCall.commit.injEq] at failed
      exact h.emits w wasDone (by rw [failed.2.1])

/-- A delivery after a transaction was there before it or is one of those it inserts. -/
theorem mem_commit_deliveries {db : Db} {w : Write} {d : WebhookDelivery}
    (h : d ∈ (db.commit w).webhookDeliveries) : d ∈ db.webhookDeliveries ∨
      ∃ row event deliveries inbound, w = .resolveVerification row event deliveries inbound ∧
        d ∈ deliveries := by
  cases w
  case resolveVerification row event deliveries inbound =>
    rcases List.mem_append.mp h with old | new
    · exact .inl old
    · exact .inr ⟨row, event, deliveries, inbound, rfl, new⟩
  case deleteEndpoint => exact .inl (List.mem_of_mem_filter h)
  all_goals exact .inl h

/-- A row is leased for at most the longest delay. -/
theorem Explained.leased {log log' : WorkerLog} {d : WebhookDelivery} (h : Explained W log d)
    (sub : ∀ e ∈ log, e ∈ log') {now later : Time}
    (written : lastWrite d.id log' = some (max now later)) :
    Explained W log'
      { d with nextAttemptAt := now + inFlightLeaseSeconds * 1000, updatedAt := later } := by
  have bound : inFlightLeaseSeconds ≤ longestDelaySeconds := by decide
  cases status : d.status with
  | pending =>
    simp only [Explained, status] at h ⊢
    exact ⟨h.1, _, written, Nat.add_le_add (Nat.le_max_left now later)
      (Nat.mul_le_mul_right 1000 bound)⟩
  | delivered =>
    simp only [Explained, status] at h ⊢
    exact h.mono sub
  | failed =>
    simp only [Explained, status] at h ⊢
    exact h.mono sub
  | abandoned =>
    simp only [Explained, status] at h ⊢
    exact h.imp (·.mono sub) (·.mono sub)

theorem lastWrite_concat {log : WorkerLog} {id : Id}
    {e : WorkerPool × Act WorkerRequest WorkerMove} :
    lastWrite id (log ++ [e]) = (writeTime id e).or (lastWrite id log) := by
  rw [lastWrite, List.filterMap_append, List.filterMap_cons, List.filterMap_nil, lastWrite]
  cases writeTime id e with
  | none => rw [List.append_nil, Option.none_or]
  | some t => rw [List.getLast?_append, List.getLast?_singleton]

/-- What a transaction inserts has its time, and what was there before it has not. -/
theorem WorkerCall.writtenAt_commit {w : Write} {store : WorkerStore} {locked : Id → Bool}
    {world : WorkerWorld} (commits : w.commits store locked = true) {d : WebhookDelivery} :
    (d.id ∈ store.drawn → (WorkerCall.commit w false).writtenAt d.id world = none) ∧
      ∀ row event deliveries inbound, w = .resolveVerification row event deliveries inbound →
        d ∈ deliveries → (WorkerCall.commit w false).writtenAt d.id world = some d.createdAt := by
  simp only [Write.commits, Bool.and_eq_true, decide_eq_true_eq, List.all_eq_true] at commits
  obtain ⟨⟨unique, fresh⟩, _⟩ := commits
  constructor
  · intro drawn
    cases w with
    | resolveVerification row event deliveries inbound =>
      rw [writtenAt, Option.map_eq_none_iff, List.find?_eq_none]
      intro d' hd' same
      refine fresh d'.id (List.mem_map_of_mem hd') ?_
      rw [of_decide_eq_true same]
      exact drawn
    | _ => rfl
  · rintro row event deliveries inbound rfl hd
    rw [writtenAt, Option.map_eq_some_iff]
    cases found : deliveries.find? (fun x => x.id = d.id) with
    | none => exact absurd (decide_eq_true rfl) (List.find?_eq_none.mp found d hd)
    | some d' =>
      have same : d'.id = d.id := by simpa using List.find?_some found
      obtain rfl := eq_of_key unique (List.mem_of_find?_eq_some found) hd same
      exact ⟨d', rfl, rfl⟩

/-- A step leaves every delivery explained, by the log with the step in it. -/
theorem WorkerCall.step_rows {log : WorkerLog} {store store' : WorkerStore} {c c' : WorkerCall}
    {locked : Id → Bool} {world : WorkerWorld} {e : WorkerPool × Act WorkerRequest WorkerMove}
    (backed : c.Backed W log) (drawn : ∀ d ∈ store.db.webhookDeliveries, d.id ∈ store.drawn)
    (rows : ∀ d ∈ store.db.webhookDeliveries, Explained W log d)
    (time : ∀ id, writeTime id e = c.writtenAt id world)
    (h : c.step W store locked world = some (store', c')) :
    ∀ d ∈ store'.db.webhookDeliveries, Explained W (log ++ [e]) d := by
  have sub : ∀ e' ∈ log, e' ∈ log ++ [e] := fun _ => List.mem_append_left _
  have unwritten : ∀ d ∈ store.db.webhookDeliveries, c.writtenAt d.id world = none →
      Explained W (log ++ [e]) d := by
    intro d hd quiet
    refine (rows d hd).later sub ?_
    rw [lastWrite_concat, time, quiet, Option.none_or]
  have written : ∀ {id t}, c.writtenAt id world = some t → lastWrite id (log ++ [e]) = some t := by
    intro id t at'
    rw [lastWrite_concat, time, at', Option.some_or]
  cases WorkerCall.step_cases h with
  | @commit w commits =>
    intro d hd
    have times := @WorkerCall.writtenAt_commit _ _ _ world commits d
    rcases mem_commit_deliveries hd with old | ⟨row, event, deliveries, inbound, rfl, new⟩
    · exact unwritten d old (times.1 (drawn d old))
    · obtain ⟨eventType, eventId, t, ds, rfl⟩ := backed.emits _ _ rfl row event _ inbound rfl
      have inserted := times.2 row event _ inbound rfl new
      obtain ⟨_, _, rfl⟩ := List.mem_map.mp new
      exact ⟨Nat.succ_pos 5, _, written inserted, Nat.le_add_right _ _⟩
  | tick ht =>
    cases ht with
    | idle => exact fun d hd => unwritten d hd rfl
    | selected => exact fun d hd => unwritten d hd rfl
    | refused => exact fun d hd => unwritten d hd rfl
    | posted => exact fun d hd => unwritten d hd rfl
    | answered => exact fun d hd => unwritten d hd rfl
    | leased =>
      intro d hd
      rcases mem_updateWhere_cases hd with ⟨d, old, hit, rfl⟩ | ⟨old, missed⟩
      · exact (rows d old).leased sub (written (if_pos (of_decide_eq_true hit)))
      · exact unwritten d old (if_neg (of_decide_eq_false missed))
    | @applied row outcome rest _ =>
      intro d hd
      rcases mem_updateWhere_cases hd with ⟨d, old, hit, rfl⟩ | ⟨old, missed⟩
      · obtain ⟨read, budget⟩ := backed.read row List.mem_cons_self
        have key : d.id = row.deliveryId := of_decide_eq_true hit
        exact applyOutcome_explained key (read.mono sub) budget
          ((backed.ended row outcome rest rfl).mono sub) (written (if_pos key.symm))
      · exact unwritten d old (if_neg fun same => of_decide_eq_false missed same.symm)

/-- The ids of the deliveries that there are have been drawn. -/
theorem WorkerCall.step_drawn {store store' : WorkerStore} {c c' : WorkerCall}
    {locked : Id → Bool} {world : WorkerWorld}
    (drawn : ∀ d ∈ store.db.webhookDeliveries, d.id ∈ store.drawn)
    (h : c.step W store locked world = some (store', c')) :
    ∀ d ∈ store'.db.webhookDeliveries, d.id ∈ store'.drawn := by
  intro d hd
  cases WorkerCall.step_cases h with
  | commit =>
    rcases mem_commit_deliveries hd with old | ⟨row, event, deliveries, inbound, rfl, new⟩
    · exact List.mem_append_right _ (drawn d old)
    · exact List.mem_append_left _ (List.mem_map_of_mem new)
  | tick ht =>
    obtain ⟨d', hd', same⟩ := List.mem_map.mp (ht.ids ▸ List.mem_map_of_mem hd)
    exact same ▸ drawn d' hd'

/-- What a call goes on with after a step is in the log, with this step. -/
theorem WorkerCall.step_backed {log : WorkerLog} {p : WorkerPool} {i : Nat} {c c' : WorkerCall}
    {store' : WorkerStore} {locked : Id → Bool} {world : WorkerWorld} (backed : c.Backed W log)
    (rows : ∀ d ∈ p.store.db.webhookDeliveries, Explained W log d) (hc : p.calls[i]? = some c)
    (h : c.step W p.store locked world = some (store', c')) :
    c'.Backed W (log ++ [(p, .turn i (.run world))]) := by
  have logged : (p, Act.turn i (.run world)) ∈ log ++ [(p, .turn i (.run world))] := by simp
  have earlier : c.Backed W (log ++ [(p, .turn i (.run world))]) :=
    backed.mono fun _ => List.mem_append_left _
  cases WorkerCall.step_cases h with
  | commit commits =>
    refine ⟨fun _ hr => absurd hr List.not_mem_nil, fun _ _ _ => nofun, ?_⟩
    rintro _ _ ⟨⟩
    exact backed.emits _ _ rfl
  | tick ht =>
    cases ht with
    | idle => exact ⟨fun _ hr => absurd hr List.not_mem_nil, fun _ _ _ => nofun, fun _ _ => nofun⟩
    | selected =>
      refine ⟨fun row hr => ⟨⟨p, i, world, locked, logged, hc, hr⟩, ?_⟩, fun _ _ _ => nofun,
        fun _ _ => nofun⟩
      obtain ⟨d, hd, _, pending, _, _, attempts⟩ := selectDue_mem hr
      have explained := rows d hd
      simp only [Explained, pending] at explained
      exact attempts ▸ explained.1
    | leased => exact ⟨earlier.read, fun _ _ _ => nofun, fun _ _ => nofun⟩
    | refused refused =>
      refine ⟨earlier.read, ?_, fun _ _ => nofun⟩
      rintro _ _ _ ⟨⟩
      exact .inl ⟨p, i, world, _, logged, hc, refused⟩
    | posted => exact ⟨earlier.read, fun _ _ _ => nofun, fun _ _ => nofun⟩
    | answered =>
      refine ⟨earlier.read, ?_, fun _ _ => nofun⟩
      rintro _ _ _ ⟨⟩
      exact .inr ⟨_, ⟨p, i, world, _, _, logged, hc, rfl⟩, rfl⟩
    | applied =>
      exact ⟨fun row hr => earlier.read row (List.mem_cons_of_mem _ hr), fun _ _ _ => nofun,
        fun _ _ => nofun⟩

/-! ## Runs -/

/-- Every delivery is explained, and every call is backed. -/
structure WorkerPool.Explained (W : WebhookPlatform) (log : WorkerLog) (p : WorkerPool) :
    Prop where
  drawn : ∀ d ∈ p.store.db.webhookDeliveries, d.id ∈ p.store.drawn
  rows : ∀ d ∈ p.store.db.webhookDeliveries, Syrotp.Explained W log d
  calls : ∀ (i : Nat) (c : WorkerCall), p.calls[i]? = some c → c.Backed W log

/-- A step keeps this, if what arrives is a transaction of the server. -/
theorem WorkerPool.Explained.step {log : WorkerLog} {p q : WorkerPool}
    {a : Act WorkerRequest WorkerMove} (h : p.Explained W log)
    (commits : ∀ w, a = .arrive (.commit w) → w.Emits)
    (hs : p.step (webhookWorkers W) a = some q) : q.Explained W (log ++ [(p, a)]) := by
  have sub : ∀ e ∈ log, e ∈ log ++ [(p, a)] := fun _ => List.mem_append_left _
  cases a with
  | arrive r =>
    obtain ⟨n, hn, rfl⟩ := Pool.step_arrive hs
    refine ⟨h.drawn, fun d hd => (h.rows d hd).later sub lastWrite_concat, fun i c hc => ?_⟩
    rcases List.mem_append.mp (List.mem_of_getElem? hc) with old | new
    · obtain ⟨j, hj⟩ := List.mem_iff_getElem?.mp old
      exact (h.calls j c hj).mono sub
    · obtain rfl := List.mem_singleton.mp new
      cases r with
      | tick =>
        obtain rfl := Option.some.inj hn
        exact ⟨fun _ hr => absurd hr List.not_mem_nil, fun _ _ _ => nofun, fun _ _ => nofun⟩
      | commit w =>
        obtain rfl := Option.some.inj hn
        refine ⟨fun _ hr => absurd hr List.not_mem_nil, fun _ _ _ => nofun, ?_⟩
        rintro _ _ ⟨⟩
        exact commits w rfl
  | turn i m =>
    obtain ⟨c, t, hc, ht, rfl⟩ := Pool.step_turn hs
    have backed := h.calls i c hc
    suffices turned : t.spawned = [] ∧ (∀ d ∈ t.store.db.webhookDeliveries, d.id ∈ t.store.drawn) ∧
        (∀ d ∈ t.store.db.webhookDeliveries, Syrotp.Explained W (log ++ [(p, .turn i m)]) d) ∧
        t.call.Backed W (log ++ [(p, .turn i m)]) by
      obtain ⟨spawned, drawn, rows, self⟩ := turned
      refine ⟨drawn, rows, fun j x hx => ?_⟩
      rcases Pool.turned_call hc hx with ⟨_, hj⟩ | ⟨_, rfl⟩ | ⟨_, new⟩
      · exact (h.calls j x hj).mono sub
      · exact self
      · rw [spawned] at new
        exact absurd new List.not_mem_nil
    cases WorkerCall.turn_cases ht with
    | ran hr =>
      refine ⟨rfl, WorkerCall.step_drawn h.drawn hr,
        WorkerCall.step_rows backed h.drawn h.rows (fun id => ?_) hr,
        WorkerCall.step_backed backed h.rows hc hr⟩
      simp only [writeTime, WorkerMove.world?, hc, Option.bind_some]
    | error hf =>
      refine ⟨rfl, h.drawn, fun d hd => (h.rows d hd).later sub ?_,
        (WorkerCall.failed_backed backed hf).mono sub⟩
      exact lastWrite_concat
    | lost hr hf =>
      refine ⟨rfl, WorkerCall.step_drawn h.drawn hr,
        WorkerCall.step_rows backed h.drawn h.rows (fun id => ?_) hr,
        (WorkerCall.failed_backed backed hf).mono sub⟩
      simp only [writeTime, WorkerMove.world?, hc, Option.bind_some]

/-- In every run, with any number of workers that stop anywhere, each delivery there is at the end
is pending and due again in time, or has reached its status for a reason that is in the log. -/
theorem deliveries_explained {store : WorkerStore} (fresh : store.db.webhookDeliveries = [])
    {log : WorkerLog} {q : WorkerPool} (run : WorkerRun W store log q)
    (commits : ∀ e ∈ log, ∀ w, e.2 = .arrive (.commit w) → ∃ env db, Justified env db w)
    {d : WebhookDelivery} (hd : d ∈ q.store.db.webhookDeliveries) : Explained W log d := by
  suffices explained : q.Explained W log from explained.rows d hd
  clear hd
  induction run with
  | start =>
    exact ⟨fun d hd => absurd (fresh ▸ hd) List.not_mem_nil,
      fun d hd => absurd (fresh ▸ hd) List.not_mem_nil, fun i c hc => by simp at hc⟩
  | next _ hs ih =>
    refine (ih fun e he => commits e (List.mem_append_left _ he)).step (fun w arrived => ?_) hs
    obtain ⟨_, _, J⟩ := commits _ (List.mem_append_right _ (List.mem_singleton.mpr rfl)) w arrived
    exact J.emits

namespace WorkerScript

def awaited : Verification :=
  ⟨newId .verification 3, app, text "+963991234567", text "login", none, none, newId .receiver 1,
    none, none, text "AAAAAA", text "VERIFY", .pending, 0, start + 600000, none, none, none, none,
    start⟩

def arrived : InboundSms :=
  ⟨newId .inbound 5, newId .receiver 1, text "+963991234567", text "+963110000000",
    text "VERIFY AAAAAA", start, text "key", none, start⟩

def verifies : Write :=
  .resolveVerification (awaited.claimed arrived.id start) event [delivery] (some arrived.id)

theorem verifies_justified :
    Justified .ascii { Db.empty with verifications := [awaited], inboundSms := [arrived] }
      verifies := by
  refine ⟨.verified, .returned event.id start [(delivery.id, endpoint.id)], ?_, by decide +kernel⟩
  refine ⟨awaited, List.mem_singleton.mpr rfl, rfl, .verified arrived.id start (by decide +kernel),
    ⟨by unfold Unclaimed; decide +kernel, arrived, List.mem_singleton.mpr rfl, rfl, rfl, ?_⟩, ?_⟩
  · exact ⟨rfl, rfl, by decide +kernel⟩
  · exact ⟨by decide +kernel, by decide +kernel, by decide +kernel⟩

def subscribed : WorkerStore := ⟨{ Db.empty with webhookEndpoints := [endpoint] }, []⟩

/-- The delivery is committed; one worker claims it and stops, and another delivers it. -/
def stopped : List (Act WorkerRequest WorkerMove) :=
  ticks ++ [.arrive (.commit verifies), turn 3 0 (.ok 200), turn 0 0 (.ok 200),
    turn 0 0 (.ok 200), .turn 0 .error] ++ delivers 1 60 (.ok 200)

/-- Nothing but this transaction is committed at this step. -/
def commitsVerifies (e : WorkerPool × Act WorkerRequest WorkerMove) : Bool :=
  match e.2 with
  | .arrive (.commit w) => w = verifies
  | _ => true

theorem stopped_run : ∃ log q, WorkerRun platform subscribed log q ∧
    (∀ e ∈ log, commitsVerifies e = true) ∧
    ∃ d ∈ q.store.db.webhookDeliveries, d.status = .delivered :=
  exists_runFrom platform subscribed stopped (by decide +kernel)

end WorkerScript

/-- The delivery that was handed over is delivered, so a request for it was answered so. -/
theorem deliveries_explained_script :
    ∃ log q, WorkerRun WorkerScript.platform WorkerScript.subscribed log q ∧
      ∃ d ∈ q.store.db.webhookDeliveries, d.status = .delivered ∧ AnsweredOk log d.id := by
  obtain ⟨log, q, run, commits, d, hd, delivered⟩ := WorkerScript.stopped_run
  have explained := deliveries_explained rfl run (fun e he w arrived => by
    have only := commits e he
    simp only [WorkerScript.commitsVerifies, arrived, decide_eq_true_eq] at only
    exact ⟨_, _, only ▸ WorkerScript.verifies_justified⟩) hd
  simp only [Explained, delivered] at explained
  exact ⟨log, q, run, d, hd, delivered, explained⟩

end Syrotp
