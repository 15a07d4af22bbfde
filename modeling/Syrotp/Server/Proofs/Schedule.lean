import Syrotp.Misc.Retry
import Syrotp.Server.Proofs.Causes
import Syrotp.Server.Proofs.Lease

/-!
# The schedule of a single worker

With a single worker that does not crash no two ticks are under way at once, so a delivery that is
claimed is in no one else's hands. Then each delivery goes as a job of the retry policy: the steps
of the worker are its events, and where the row is says where the job stands.
-/

namespace Syrotp

variable {W : WebhookPlatform}

/-! ## The policy -/

/-- `RETRY_DELAY_SECONDS` as delays of a job, which is abandoned in the end. -/
def webhookRetries : RetryPolicy WebhookDeliveryStatus :=
  ⟨retryDelaySeconds.map (· * 1000), .abandoned⟩

def DeliveryOutcome.verdict : DeliveryOutcome → Verdict WebhookDeliveryStatus
  | .delivered _ => .final .delivered
  | .retry .. => .retriable
  | .permanent .. => .final .failed
  | .endpointDisabled => .final .abandoned

/-- The table has a delay for each attempt but the last. -/
theorem nextRetryDelaySeconds_succ (n : Nat) :
    nextRetryDelaySeconds (n + 1) = retryDelaySeconds[n]? := by
  by_cases last : maxDeliveryAttempts ≤ n + 1
  · have used : retryDelaySeconds.length ≤ n := Nat.le_of_succ_le_succ last
    rw [nextRetryDelaySeconds, if_pos last, List.getElem?_eq_none_iff.mpr used]
  · rw [nextRetryDelaySeconds, if_neg last]

theorem retryDelaySeconds_bound {n delay : Nat} (h : retryDelaySeconds[n]? = some delay) :
    n + 1 < maxDeliveryAttempts :=
  Nat.succ_lt_succ (List.getElem?_eq_some_iff.mp h).1

/-- A row as the job has it while no worker has it. -/
def WebhookDelivery.At (d : WebhookDelivery) : RetryJob WebhookDeliveryStatus → Prop
  | .waiting made due => d.status = .pending → d.attemptCount = made ∧ due ≤ d.nextAttemptAt
  | .ended _ ending => d.status = ending ∧ ending ≠ .pending
  | _ => False

/-- A final verdict is the status of the row. -/
theorem applyOutcome_final {now later : Time} {n : Nat} {outcome : DeliveryOutcome}
    {ending : WebhookDeliveryStatus} (h : outcome.verdict = .final ending) (d : WebhookDelivery) :
    (applyOutcome now later n outcome d).status = ending ∧ ending ≠ .pending := by
  cases outcome with
  | retry => exact nomatch h
  | delivered => exact Verdict.final.inj h ▸ ⟨rfl, nofun⟩
  | permanent => exact Verdict.final.inj h ▸ ⟨rfl, nofun⟩
  | endpointDisabled => exact Verdict.final.inj h ▸ ⟨rfl, nofun⟩

/-- After another one the row is due again by the table, or it was the last attempt. -/
theorem applyOutcome_retriable (now t : Time) (n : Nat) {outcome : DeliveryOutcome}
    (h : outcome.verdict = .retriable) (d : WebhookDelivery) :
    let written := applyOutcome now t (n + 1) outcome d
    (∃ delay, retryDelaySeconds[n]? = some delay ∧ written.status = .pending ∧
        written.nextAttemptAt = t + delay * 1000) ∨
      (retryDelaySeconds[n]? = none ∧ written.status = .abandoned) := by
  cases outcome with
  | retry reason statusCode message =>
    simp only [applyOutcome, nextRetryDelaySeconds_succ]
    cases table : retryDelaySeconds[n]? with
    | none => exact .inr ⟨rfl, rfl⟩
    | some delay =>
      refine .inl ⟨delay, rfl, ?_⟩
      simp only [if_neg (Nat.not_le_of_lt (retryDelaySeconds_bound table)), and_self]
  | delivered => exact nomatch h
  | permanent => exact nomatch h
  | endpointDisabled => exact nomatch h

/-- The same of its job. -/
theorem webhookRetries_settle (n : Nat) (t : Time) :
    webhookRetries.settle (n + 1) t .retriable =
      match retryDelaySeconds[n]? with
      | some delay => .waiting (n + 1) (t + delay * 1000)
      | none => .ended (n + 1) .abandoned := by
  have delays : webhookRetries.delays[n]? = retryDelaySeconds[n]?.map (· * 1000) :=
    List.getElem?_map ..
  simp only [RetryPolicy.settle, Nat.add_sub_cancel, delays]
  cases retryDelaySeconds[n]? <;> rfl

/-- What is written to a row is what the verdict makes of its job. -/
theorem applyOutcome_at {now later : Time} {n made : Nat} {outcome : DeliveryOutcome}
    (counted : outcome.verdict = .retriable → made = n + 1) (d : WebhookDelivery) :
    (applyOutcome now later (n + 1) outcome d).At
      (webhookRetries.settle made later outcome.verdict) := by
  cases h : outcome.verdict with
  | final ending => exact applyOutcome_final h d
  | retriable =>
    obtain rfl := counted h
    rw [webhookRetries_settle]
    rcases applyOutcome_retriable now later n h d with
      ⟨delay, table, -, due⟩ | ⟨table, abandoned⟩
    · rw [table]
      exact fun _ => ⟨applyOutcome_attemptCount .., Nat.le_of_eq due.symm⟩
    · rw [table]
      exact ⟨abandoned, nofun⟩

/-- Without a request the outcome is final. -/
theorem deliver_final {now : Time} {row : DueRow} {n : Nat} {outcome : DeliveryOutcome}
    (h : deliver W now row n = .error outcome) : ∃ ending, outcome.verdict = .final ending := by
  rcases deliver_error h with ⟨rfl, _⟩ | ⟨_, _, _, rfl⟩
  · exact ⟨_, rfl⟩
  · exact ⟨_, rfl⟩

/-! ## A single worker -/

/-- No tick is under way in this call. -/
def WorkerCall.isIdle : WorkerCall → Bool
  | .tick phase => phase.isOver
  | .commit .. => true

/-- The step may be one of a single worker that does not crash: a tick begins when those before it
are over, and it does not throw while it has rows. -/
def singleWorker : WorkerPool × Act WorkerRequest WorkerMove → Bool
  | (p, .arrive .tick) => p.calls.all (·.isIdle)
  | (_, .arrive (.commit _)) => true
  | (_, .turn _ (.run _)) => true
  | (p, .turn i _) => (p.rowsOf i).isEmpty

/-- The run is one of such a worker, beside transactions of the server. -/
structure Sole (log : WorkerLog) : Prop where
  worker : ∀ e ∈ log, singleWorker e = true
  commits : ∀ e ∈ log, ∀ w, e.2 = .arrive (.commit w) → w.Emits

theorem Sole.of_append {log log' : WorkerLog} (h : Sole (log ++ log')) : Sole log :=
  ⟨fun e he => h.worker e (List.mem_append_left _ he),
    fun e he => h.commits e (List.mem_append_left _ he)⟩

theorem WorkerCall.rows_of_idle {c : WorkerCall} (h : c.isIdle = true) : c.rows = [] := by
  cases c with
  | commit => rfl
  | tick phase =>
    cases phase with
    | deliver rows =>
      cases rows with
      | nil => rfl
      | cons => exact nomatch h
    | failed => rfl
    | _ => exact nomatch h

theorem WorkerCall.locks_of_idle {c : WorkerCall} (h : c.isIdle = true) : c.locks = [] := by
  cases c with
  | commit => rfl
  | tick phase =>
    cases phase with
    | lease => exact nomatch h
    | _ => rfl

/-- A tick that takes a turn is under way. -/
theorem WorkerTurn.underway {store : WorkerStore} {locked : Id → Bool} {phase : WorkerPhase}
    {m : WorkerMove} {t : Turn WorkerStore WorkerCall}
    (h : WorkerTurn W store locked (.tick phase) m t) : phase.isOver = false := by
  have failing : ∀ {f}, (WorkerCall.tick phase).failed = some f → phase.isOver = false :=
    fun hf => Bool.eq_false_iff.mpr (Option.ite_none_left_eq_some.mp hf).1
  cases h with
  | ran hr =>
    cases WorkerCall.step_cases hr with
    | tick ht => cases ht <;> rfl
  | error hf => exact failing hf
  | lost _ hf => exact failing hf

/-- What a call has while it is a tick under way. -/
def WorkerCall.busy (c : WorkerCall) : List Unit := if c.isIdle then [] else [()]

/-- What the call is to insert comes from `emitVerificationEventInTx`. -/
def WorkerCall.Emits : WorkerCall → Prop
  | .commit w _ => w.Emits
  | .tick _ => True

/-- A call that becomes a tick under way was one. -/
theorem WorkerTurn.busy {store : WorkerStore} {locked : Id → Bool} {c : WorkerCall}
    {m : WorkerMove} {t : Turn WorkerStore WorkerCall} (h : WorkerTurn W store locked c m t) :
    ∀ k ∈ t.call.busy, k ∈ c.busy := by
  cases c with
  | tick phase =>
    intro k _
    have underway : (WorkerCall.tick phase).isIdle = false := h.underway
    rw [WorkerCall.busy, underway]
    exact List.mem_singleton_self ()
  | commit w isDone =>
    have failing : ∀ {f}, (WorkerCall.commit w isDone).failed = some f → f.busy = [] :=
      fun hf => Option.some.inj (Option.ite_none_left_eq_some.mp hf).2 ▸ rfl
    have idle : t.call.busy = [] := by
      cases h with
      | ran hr => cases WorkerCall.step_cases hr with | commit => rfl
      | error hf => exact failing hf
      | lost _ hf => exact failing hf
    exact fun k hk => absurd (idle ▸ hk) List.not_mem_nil

theorem WorkerTurn.emits {store : WorkerStore} {locked : Id → Bool} {c : WorkerCall}
    {m : WorkerMove} {t : Turn WorkerStore WorkerCall} (h : WorkerTurn W store locked c m t)
    (emits : c.Emits) : t.call.Emits := by
  have failing : ∀ {f}, c.failed = some f → f.Emits := by
    intro f hf
    cases c with
    | tick => exact WorkerPool.failed_tick hf ▸ trivial
    | commit =>
      obtain rfl := Option.some.inj (Option.ite_none_left_eq_some.mp hf).2
      exact emits
  cases h with
  | ran hr =>
    cases WorkerCall.step_cases hr with
    | tick => exact trivial
    | commit => exact emits
  | error hf => exact failing hf
  | lost _ hf => exact failing hf

namespace WorkerPool

variable {p q : WorkerPool} {a : Act WorkerRequest WorkerMove} {log : WorkerLog}

/-- At most one tick is under way, beside transactions of the server. -/
structure Single (p : WorkerPool) : Prop where
  one : Pool.Exclusive WorkerCall.busy p.calls
  emits : ∀ c ∈ p.calls, c.Emits

/-- The calls beside a tick under way are idle. -/
theorem Single.others (h : p.Single) {i j : Nat} {phase : WorkerPhase} {c : WorkerCall}
    (hi : p.calls[i]? = some (.tick phase)) (underway : phase.isOver = false) (ne : j ≠ i)
    (hj : p.calls[j]? = some c) : c.isIdle = true := by
  have busy : (WorkerCall.tick phase).busy = [()] := if_neg (by simp [WorkerCall.isIdle, underway])
  have apart := h.one i j _ c hi hj (Ne.symm ne) () (busy ▸ List.mem_singleton_self ())
  by_contra working
  have theirs : c.busy = [()] := if_neg working
  exact apart (theirs ▸ List.mem_singleton_self ())

/-- So leases need not cover anything. -/
theorem Single.covers (h : p.Single) (e : WorkerPool × Act WorkerRequest WorkerMove) :
    leaseCovers e (p, a) = true := by
  unfold leaseCovers
  split
  · next i claimed time _ selected =>
    refine Bool.or_eq_true_iff.mpr (.inl ?_)
    unfold selectedAt at selected
    split at selected
    · next k w _ =>
      split at selected
      · next hk =>
        rw [rowsOf, List.isEmpty_iff]
        cases hi : p.calls[i]? with
        | none => rfl
        | some c =>
          by_cases same : i = k
          · subst same
            obtain rfl := Option.some.inj (hi.symm.trans hk)
            rfl
          · exact WorkerCall.rows_of_idle (h.others hk rfl same hi)
      · cases selected
    · cases selected
  · rfl

/-- A single worker stays single. -/
theorem Single.step (h : p.Single) (single : singleWorker (p, a) = true)
    (commits : ∀ w, a = .arrive (.commit w) → w.Emits)
    (hs : p.step (webhookWorkers W) a = some q) : q.Single := by
  cases a with
  | arrive r =>
    obtain ⟨n, hn, rfl⟩ := Pool.step_arrive hs
    have fits : n.Emits ∧ ∀ o ∈ p.calls, ∀ k ∈ n.busy, k ∉ o.busy := by
      cases r with
      | tick =>
        obtain rfl := Option.some.inj hn
        refine ⟨trivial, fun o ho k _ busy => ?_⟩
        have idle : o.isIdle = true := List.all_eq_true.mp single o ho
        rw [WorkerCall.busy, if_pos idle] at busy
        exact List.not_mem_nil busy
      | commit w =>
        obtain rfl := Option.some.inj hn
        exact ⟨commits w rfl, fun o _ k busy => absurd busy List.not_mem_nil⟩
    refine ⟨Pool.exclusive_append_one h.one fits.2, fun c hc => ?_⟩
    rcases List.mem_append.mp hc with old | new
    · exact h.emits c old
    · exact List.mem_singleton.mp new ▸ fits.1
  | turn i m =>
    obtain ⟨c, t, hc, ht, rfl⟩ := Pool.step_turn hs
    have turned := WorkerCall.turn_cases ht
    have spawned : t.spawned = [] := by cases turned <;> rfl
    rw [spawned, List.append_nil]
    refine ⟨Pool.exclusive_set h.one hc fun k hk => .inl (turned.busy k hk), fun x hx => ?_⟩
    rcases List.mem_or_eq_of_mem_set hx with old | rfl
    · exact h.emits x old
    · exact turned.emits (h.emits c (List.mem_of_getElem? hc))

end WorkerPool

/-! ## Steps as events -/

/-- The rows that a tick selects next. -/
def WorkerPool.batch (p : WorkerPool) (i : Nat) (w : WorkerWorld) : List DueRow :=
  selectDue p.store.db (fun id => (p.others i).any fun o => id ∈ o.locks) w

/-- What `deliver` does is the attempt, or it ends the job without. -/
def deliverEvent (W : WebhookPlatform) (now : Time) (row : DueRow) :
    Option (RetryEvent WebhookDeliveryStatus) :=
  match deliver W now row (row.attemptCount + 1) with
  | .ok request => some (.sent request.attempt)
  | .error outcome =>
    match outcome.verdict with
    | .final ending => some (.refused ending)
    | .retriable => none

theorem deliverEvent_ok {now : Time} {row : DueRow} {request : DeliveryRequest}
    (h : deliver W now row (row.attemptCount + 1) = .ok request) :
    deliverEvent W now row = some (.sent (row.attemptCount + 1)) := by
  simp only [deliverEvent, h, (deliver_ok h).2.2.2]

theorem deliverEvent_error {now : Time} {row : DueRow} {outcome : DeliveryOutcome}
    (h : deliver W now row (row.attemptCount + 1) = .error outcome) :
    ∃ ending, outcome.verdict = .final ending ∧
      deliverEvent W now row = some (.refused ending) := by
  obtain ⟨ending, final⟩ := deliver_final h
  exact ⟨ending, final, by simp only [deliverEvent, h, final]⟩

/-- What the next step of a tick is for the job of a delivery. -/
def WorkerPhase.event (W : WebhookPlatform) (id : Id) (w : WorkerWorld) (batch : List DueRow) :
    WorkerPhase → Option (RetryEvent WebhookDeliveryStatus)
  | .select => if id ∈ batch.map (·.deliveryId) then some (.claimed w.dbNow) else none
  | .deliver (row :: _) => if row.deliveryId = id then deliverEvent W w.now row else none
  | .fetch row _ _ =>
    if row.deliveryId = id then some (.answered (deliveryOutcome w.response).verdict) else none
  | .applyOutcome row _ _ => if row.deliveryId = id then some (.written w.later) else none
  | _ => none

/-- What a step is for it. -/
def jobEvent (W : WebhookPlatform) (id : Id) (e : WorkerPool × Act WorkerRequest WorkerMove) :
    Option (RetryEvent WebhookDeliveryStatus) :=
  match e.2 with
  | .turn i (.run w) =>
    match e.1.calls[i]? with
    | some (.tick phase) => phase.event W id w (e.1.batch i w)
    | _ => none
  | _ => none

/-- The events of a log for it. -/
def jobEvents (W : WebhookPlatform) (id : Id) (log : WorkerLog) :
    List (RetryEvent WebhookDeliveryStatus) := log.filterMap (jobEvent W id)

/-- The job of a delivery is where a tick that has it is. -/
def WorkerPhase.Agrees (id : Id) (j : RetryJob WebhookDeliveryStatus) : WorkerPhase → Prop
  | .select => True
  | .lease rows => ∀ r ∈ rows, r.deliveryId = id → j = .claimed r.attemptCount
  | .deliver rows => ∀ r ∈ rows, r.deliveryId = id → j = .claimed r.attemptCount
  | .fetch row _ rest =>
    (row.deliveryId = id → j = .trying (row.attemptCount + 1)) ∧
      ∀ r ∈ rest, r.deliveryId = id → j = .claimed r.attemptCount
  | .applyOutcome row outcome rest =>
    (row.deliveryId = id → ∃ made, j = .settling made outcome.verdict ∧
      (outcome.verdict = .retriable → made = row.attemptCount + 1)) ∧
      ∀ r ∈ rest, r.deliveryId = id → j = .claimed r.attemptCount
  | .failed => True

def WorkerCall.Agrees (id : Id) (j : RetryJob WebhookDeliveryStatus) : WorkerCall → Prop
  | .tick phase => phase.Agrees id j
  | .commit .. => True

theorem WorkerCall.agrees_of_rows {c : WorkerCall} {id : Id} {j : RetryJob WebhookDeliveryStatus}
    (h : c.rows = []) : c.Agrees id j := by
  cases c with
  | commit => exact trivial
  | tick phase =>
    cases phase with
    | select => exact trivial
    | lease rows =>
      obtain rfl : rows = [] := h
      exact fun _ hr => absurd hr List.not_mem_nil
    | deliver rows =>
      obtain rfl : rows = [] := h
      exact fun _ hr => absurd hr List.not_mem_nil
    | fetch => exact nomatch h
    | applyOutcome => exact nomatch h
    | failed => exact trivial

namespace WorkerPool

variable {p : WorkerPool} {id : Id} {j : RetryJob WebhookDeliveryStatus}

/-- No call has the delivery. -/
def Free (p : WorkerPool) (id : Id) : Prop :=
  ∀ (i : Nat) (c : WorkerCall), p.calls[i]? = some c → id ∉ c.rows.map (·.deliveryId)

/-- The job of a delivery is where the pool has it: with the call that has the delivery, or else
as its row says; and before there is a row it has not begun. -/
structure Follows (p : WorkerPool) (id : Id) (j : RetryJob WebhookDeliveryStatus) : Prop where
  calls : ∀ (i : Nat) (c : WorkerCall), p.calls[i]? = some c → c.Agrees id j
  row : p.Free id → ∀ d ∈ p.store.db.webhookDeliveries, d.id = id → d.At j
  fresh : id ∉ p.store.drawn → j = .waiting 0 0

/-- A turn that leaves the delivery alone. -/
theorem Follows.frame (h : p.Follows id j) {i : Nat} {c c' : WorkerCall} {store' : WorkerStore}
    (hc : p.calls[i]? = some c) (keeps : p.store.Keeps store' c.touches)
    (apart : id ∉ c.touches) (drawn : ∀ id ∈ p.store.drawn, id ∈ store'.drawn)
    (new : ∀ d ∈ store'.db.webhookDeliveries, d.id ∉ p.store.drawn → d.attemptCount = 0)
    (held : id ∈ c.rows.map (·.deliveryId) → id ∈ c'.rows.map (·.deliveryId))
    (agrees : c'.Agrees id j) : Follows ⟨store', p.calls.set i c' ++ []⟩ id j := by
  refine ⟨fun k x hk => ?_, fun free d hd same => ?_, fun fresh => h.fresh (mt (drawn id) fresh)⟩
  · rcases Pool.turned_call (t := ⟨store', c', []⟩) hc hk with ⟨_, hk⟩ | ⟨_, rfl⟩ | ⟨_, new⟩
    · exact h.calls k x hk
    · exact agrees
    · exact absurd new List.not_mem_nil
  · by_cases known : id ∈ p.store.drawn
    · refine h.row (fun k x hk => ?_) d (keeps.rows d hd (same ▸ known) (same ▸ apart)) same
      by_cases self : k = i
      · subst self
        obtain rfl := Option.some.inj (hc.symm.trans hk)
        exact mt held (free k c' (Pool.turned_self (t := ⟨store', c', []⟩) hc))
      · exact free k x (Pool.turned_other (t := ⟨store', c', []⟩) hk self)
    · rw [h.fresh known]
      exact fun _ => ⟨new d hd (same ▸ known), Nat.zero_le _⟩

/-- A turn with an event of its job; no other call has the delivery. -/
theorem Single.follows (h : p.Single) {i : Nat} {phase phase' : WorkerPhase}
    {store' : WorkerStore} (hi : p.calls[i]? = some (.tick phase))
    (underway : phase.isOver = false) (known : id ∈ store'.drawn)
    (agrees : phase'.Agrees id j)
    (row : id ∉ phase'.rows.map (·.deliveryId) →
      ∀ d ∈ store'.db.webhookDeliveries, d.id = id → d.At j) :
    Follows ⟨store', p.calls.set i (.tick phase') ++ []⟩ id j := by
  have self := Pool.turned_self (t := ⟨store', .tick phase', []⟩) hi
  refine ⟨fun k x hk => ?_, fun free => row (free i _ self), fun fresh => absurd known fresh⟩
  · rcases Pool.turned_call (t := ⟨store', .tick phase', []⟩) hi hk with
      ⟨ne, hk⟩ | ⟨_, rfl⟩ | ⟨_, new⟩
    · exact WorkerCall.agrees_of_rows (WorkerCall.rows_of_idle (h.others hi underway ne hk))
    · exact agrees
    · exact absurd new List.not_mem_nil

end WorkerPool

/-! ## The simulation -/

/-- What a turn leaves alone, and that it inserts only deliveries that were not tried. -/
theorem WorkerTurn.frame {store : WorkerStore} {locked : Id → Bool} {c : WorkerCall}
    {m : WorkerMove} {t : Turn WorkerStore WorkerCall} (h : WorkerTurn W store locked c m t)
    (wf : store.WellFormed) (emits : c.Emits) :
    store.Keeps t.store c.touches ∧ (∀ id ∈ store.drawn, id ∈ t.store.drawn) ∧
      ∀ d ∈ t.store.db.webhookDeliveries, d.id ∉ store.drawn → d.attemptCount = 0 := by
  have old : ∀ d ∈ store.db.webhookDeliveries, d.id ∉ store.drawn → d.attemptCount = 0 :=
    fun d hd new => absurd (wf.drawn d hd) new
  have stepped : ∀ {world store' c'}, c.step W store locked world = some (store', c') →
      store.Keeps store' c.touches ∧ (∀ id ∈ store.drawn, id ∈ store'.drawn) ∧
        ∀ d ∈ store'.db.webhookDeliveries, d.id ∉ store.drawn → d.attemptCount = 0 := by
    intro world store' c' hr
    refine ⟨WorkerCall.step_keeps hr, ?_⟩
    cases WorkerCall.step_cases hr with
    | commit =>
      refine ⟨fun _ => List.mem_append_right _, fun d hd new => ?_⟩
      rcases mem_commit_deliveries hd with kept | ⟨row, event, deliveries, inbound, rfl, inserted⟩
      · exact old d kept new
      · obtain ⟨_, _, _, _, rfl⟩ := emits row event deliveries inbound rfl
        obtain ⟨_, _, rfl⟩ := List.mem_map.mp inserted
        rfl
    | tick ht =>
      refine ⟨fun _ => id, fun d hd new => ?_⟩
      obtain ⟨d', hd', same⟩ := List.mem_map.mp (ht.ids ▸ List.mem_map_of_mem hd)
      exact absurd (same ▸ wf.drawn d' hd') new
  cases h with
  | ran hr => exact stepped hr
  | error => exact ⟨.refl _ _, fun _ => id, old⟩
  | lost hr => exact stepped hr

namespace WorkerPool

variable {p q : WorkerPool} {a : Act WorkerRequest WorkerMove} {log : WorkerLog} {id : Id}
  {j : RetryJob WebhookDeliveryStatus}

/-- A delivery that is claimed has been waiting, and no longer has to. -/
theorem Follows.claimed (h : p.Follows id j) (single : p.Single) (sound : p.Sound) {i : Nat}
    {w : WorkerWorld} (hi : p.calls[i]? = some (.tick .select)) {row : DueRow}
    (hrow : row ∈ p.batch i w) (same : row.deliveryId = id) :
    ∃ due, j = .waiting row.attemptCount due ∧ due ≤ w.dbNow ∧ id ∈ p.store.drawn := by
  obtain ⟨d, hd, key, pending, late, _, attempts⟩ := selectDue_mem hrow
  have free : p.Free id := by
    intro k c hk
    by_cases self : k = i
    · subst self
      obtain rfl := Option.some.inj (hk.symm.trans hi)
      exact List.not_mem_nil
    · rw [WorkerCall.rows_of_idle (single.others hi rfl self hk)]
      exact List.not_mem_nil
  have at_j := h.row free d hd (key.trans same)
  have known : id ∈ p.store.drawn := key.trans same ▸ sound.wellFormed.drawn d hd
  cases j with
  | waiting made due =>
    obtain ⟨rfl, early⟩ := at_j pending
    exact ⟨due, by rw [attempts], Nat.le_trans early late, known⟩
  | ended made ending => exact absurd (at_j.1.symm.trans pending) at_j.2
  | _ => exact at_j.elim

/-- A step of a tick is an event of the job, or leaves it alone. -/
theorem Follows.tick (h : p.Follows id j) (single : p.Single) (leased : p.Leased log) {i : Nat}
    {phase phase' : WorkerPhase} {w : WorkerWorld} {store' : WorkerStore}
    (hi : p.calls[i]? = some (.tick phase))
    (hr : (WorkerCall.tick phase).step W p.store
      (fun id => (p.others i).any fun o => id ∈ o.locks) w = some (store', .tick phase')) :
    ∃ j', j.after webhookRetries (phase.event W id w (p.batch i w)).toList = some j' ∧
      Follows ⟨store', p.calls.set i (.tick phase') ++ []⟩ id j' := by
  have turned : WorkerTurn W p.store _ (.tick phase) (.run w) ⟨store', .tick phase', []⟩ := .ran hr
  obtain ⟨keeps, drawn, new⟩ := turned.frame leased.sound.wellFormed trivial
  have mine : phase.Agrees id j := h.calls i _ hi
  have known : ∀ row ∈ phase.rows, row.deliveryId ∈ store'.drawn := fun row hr =>
    drawn _ (leased.sound.claimed i _ hi row hr).drawn
  have keys : (phase.rows.map (·.deliveryId)).Nodup := (leased.holds i _ hi).keys
  have frame (apart : id ∉ (WorkerCall.tick phase).touches)
      (held : id ∈ phase.rows.map (·.deliveryId) → id ∈ phase'.rows.map (·.deliveryId))
      (agrees : phase'.Agrees id j) :
      Follows ⟨store', p.calls.set i (.tick phase') ++ []⟩ id j :=
    h.frame hi keeps apart drawn new held agrees
  have other : ∀ {row : DueRow} {rest : List DueRow} {j : RetryJob WebhookDeliveryStatus},
      (row.deliveryId :: rest.map (·.deliveryId)).Nodup → ∀ r ∈ rest,
        r.deliveryId = row.deliveryId → j = .claimed r.attemptCount := fun keys r hr same =>
    absurd (List.mem_map.mpr ⟨r, hr, same⟩) (List.nodup_cons.mp keys).1
  cases WorkerCall.step_cases hr with | tick ht =>
  cases ht with
  | idle none =>
    rw [WorkerPhase.event, WorkerPool.batch, none, List.map_nil, if_neg List.not_mem_nil]
    exact ⟨j, rfl, frame List.not_mem_nil (fun held => held)
      fun _ hr => absurd hr List.not_mem_nil⟩
  | selected =>
    have waiting : ∀ r ∈ p.batch i w, r.deliveryId = id →
        ∃ due, j = .waiting r.attemptCount due ∧ due ≤ w.dbNow ∧ id ∈ p.store.drawn :=
      fun _ hr same => h.claimed single leased.sound hi hr same
    by_cases held : id ∈ (p.batch i w).map (·.deliveryId)
    · obtain ⟨row, hrow, same⟩ := List.mem_map.mp held
      obtain ⟨due, rfl, late, drawn⟩ := waiting row hrow same
      rw [WorkerPhase.event, if_pos held]
      refine ⟨.claimed row.attemptCount, RetryJob.after_event (if_pos late),
        single.follows hi rfl drawn (fun r hr same => ?_) fun none => absurd held none⟩
      obtain ⟨_, twin, _⟩ := waiting r hr same
      rw [(RetryJob.waiting.inj twin).1]
    · rw [WorkerPhase.event, if_neg held]
      exact ⟨j, rfl, frame List.not_mem_nil (fun held => absurd held List.not_mem_nil)
        fun r hr same => absurd (List.mem_map.mpr ⟨r, hr, same⟩) held⟩
  | @leased rows =>
    refine ⟨j, rfl, ?_⟩
    by_cases held : id ∈ rows.map (·.deliveryId)
    · obtain ⟨row, hrow, rfl⟩ := List.mem_map.mp held
      exact single.follows hi rfl (known row hrow) mine fun none => absurd held none
    · exact frame held (fun held => held) mine
  | @refused row rest outcome refused =>
    rw [WorkerPhase.event]
    by_cases same : row.deliveryId = id
    · subst same
      obtain ⟨ending, final, event⟩ := deliverEvent_error refused
      obtain rfl := mine row List.mem_cons_self rfl
      rw [if_pos rfl, event]
      refine ⟨_, RetryJob.after_event rfl, single.follows hi rfl (known row List.mem_cons_self)
        ⟨fun _ => ?_, other keys⟩ fun none => absurd List.mem_cons_self none⟩
      exact ⟨row.attemptCount, by rw [final], fun h => nomatch final.symm.trans h⟩
    · rw [if_neg same]
      exact ⟨j, rfl, frame List.not_mem_nil (fun held => held)
        ⟨fun h => absurd h same, fun r hr => mine r (List.mem_cons_of_mem _ hr)⟩⟩
  | @posted row rest request posted =>
    rw [WorkerPhase.event]
    by_cases same : row.deliveryId = id
    · subst same
      obtain rfl := mine row List.mem_cons_self rfl
      rw [if_pos rfl, deliverEvent_ok posted]
      exact ⟨_, RetryJob.after_event (if_pos rfl), single.follows hi rfl
        (known row List.mem_cons_self) ⟨fun _ => rfl, other keys⟩
        fun none => absurd List.mem_cons_self none⟩
    · rw [if_neg same]
      exact ⟨j, rfl, frame List.not_mem_nil (fun held => held)
        ⟨fun h => absurd h same, fun r hr => mine r (List.mem_cons_of_mem _ hr)⟩⟩
  | @answered row request rest =>
    rw [WorkerPhase.event]
    by_cases same : row.deliveryId = id
    · subst same
      obtain rfl := mine.1 rfl
      rw [if_pos rfl]
      exact ⟨_, RetryJob.after_event rfl, single.follows hi rfl (known row List.mem_cons_self)
        ⟨fun _ => ⟨_, rfl, fun _ => rfl⟩, other keys⟩ fun none => absurd List.mem_cons_self none⟩
    · rw [if_neg same]
      exact ⟨j, rfl, frame List.not_mem_nil (fun held => held)
        ⟨fun h => absurd h same, mine.2⟩⟩
  | @applied row outcome rest _ =>
    rw [WorkerPhase.event]
    by_cases same : row.deliveryId = id
    · subst same
      obtain ⟨made, rfl, counted⟩ := mine.1 rfl
      rw [if_pos rfl]
      refine ⟨_, RetryJob.after_event rfl, single.follows hi rfl (known row List.mem_cons_self)
        (other keys) fun _ d hd key => ?_⟩
      rcases mem_updateWhere_cases hd with ⟨d, _, _, rfl⟩ | ⟨_, missed⟩
      · exact applyOutcome_at counted d
      · exact absurd key (of_decide_eq_false missed)
    · rw [if_neg same]
      refine ⟨j, rfl, frame ?_ (fun held => ?_) mine.2⟩
      · exact fun touched => same (List.mem_singleton.mp touched).symm
      · exact (List.mem_cons.mp held).resolve_left fun h => same h.symm

/-- So is every step of a single worker and of the server. -/
theorem Follows.step (h : p.Follows id j) (single : p.Single) (leased : p.Leased log)
    (allowed : singleWorker (p, a) = true) (hs : p.step (webhookWorkers W) a = some q) :
    ∃ j', j.after webhookRetries (jobEvent W id (p, a)).toList = some j' ∧ q.Follows id j' := by
  cases a with
  | arrive r =>
    obtain ⟨n, hn, rfl⟩ := Pool.step_arrive hs
    have idle : n.rows = [] := by
      cases r <;> obtain rfl := Option.some.inj hn <;> rfl
    have earlier : ∀ {k : Nat} {c : WorkerCall}, p.calls[k]? = some c →
        (p.calls ++ [n])[k]? = some c := fun hk =>
      (List.getElem?_append_left (List.getElem?_eq_some_iff.mp hk).1).trans hk
    refine ⟨j, rfl, fun k c hk => ?_, fun free => h.row fun k c hk => free k c (earlier hk),
      h.fresh⟩
    rcases Nat.lt_or_ge k p.calls.length with inside | outside
    · exact h.calls k c ((List.getElem?_append_left inside).symm.trans hk)
    · rw [List.getElem?_append_right outside] at hk
      obtain rfl := List.mem_singleton.mp (List.mem_of_getElem? hk)
      exact WorkerCall.agrees_of_rows idle
  | turn i m =>
    obtain ⟨c, t, hc, ht, rfl⟩ := Pool.step_turn hs
    have turned := WorkerCall.turn_cases ht
    have spawned : t.spawned = [] := by cases turned <;> rfl
    obtain ⟨keeps, drawn, new⟩ :=
      turned.frame leased.sound.wellFormed (single.emits c (List.mem_of_getElem? hc))
    rw [spawned]
    -- a call without rows leaves every delivery alone
    have idle (rows : c.rows = []) (rows' : t.call.rows = []) :
        Follows ⟨t.store, p.calls.set i t.call ++ []⟩ id j := by
      have empty : ∀ {x : WorkerCall}, x.rows = [] → id ∉ x.rows.map (·.deliveryId) :=
        fun none held => absurd (none ▸ held) List.not_mem_nil
      exact h.frame hc keeps (mt WorkerCall.touches_rows (empty rows)) drawn new
        (fun held => absurd held (empty rows)) (WorkerCall.agrees_of_rows rows')
    have thrown : (p.rowsOf i).isEmpty = true → c.rows = [] := by
      rw [rowsOf, hc]
      exact List.isEmpty_iff.mp
    cases turned with
    | ran hr =>
      simp only [jobEvent, hc]
      cases WorkerCall.step_cases hr with
      | tick => exact h.tick single leased hc hr
      | commit => exact ⟨j, rfl, idle rfl rfl⟩
    | error hf => exact ⟨j, rfl, idle (thrown allowed) (WorkerCall.failed_rows hf)⟩
    | lost _ hf => exact ⟨j, rfl, idle (thrown allowed) (WorkerCall.failed_rows hf)⟩

/-- In a run of a single worker each delivery goes as a job of the retry policy. -/
theorem follows {store : WorkerStore} (wf : store.WellFormed)
    (untried : ∀ d ∈ store.db.webhookDeliveries, d.attemptCount = 0)
    (run : WorkerRun W store log q) (sole : Sole log) :
    q.Single ∧ q.Leased log ∧ ∀ id, ∃ j,
      (RetryJob.waiting 0 0).after webhookRetries (jobEvents W id log) = some j ∧
        q.Follows id j := by
  induction run with
  | start =>
    refine ⟨⟨fun i j a b ha => by simp at ha, fun c hc => by simp at hc⟩,
      ⟨⟨wf, fun i c hc => by simp at hc⟩, fun i c hc => by simp at hc,
        fun i j a b ha => by simp at ha⟩,
      fun id => ⟨.waiting 0 0, rfl, fun i c hc => by simp at hc, fun _ d hd _ _ => ?_,
        fun _ => rfl⟩⟩
    exact ⟨untried d hd, Nat.zero_le _⟩
  | @next log t u a run hs ih =>
    have last : (t, a) ∈ log ++ [(t, a)] := List.mem_append_right _ (List.mem_singleton_self _)
    obtain ⟨one, leased, jobs⟩ := ih sole.of_append
    have allowed := sole.worker (t, a) last
    refine ⟨one.step allowed (sole.commits (t, a) last) hs,
      leased.step (fun e _ => one.covers e) hs,
      fun id => ?_⟩
    obtain ⟨j, before, follows⟩ := jobs id
    obtain ⟨j', event, follows'⟩ := follows.step one leased allowed hs
    refine ⟨j', ?_, follows'⟩
    have events : jobEvents W id (log ++ [(t, a)]) =
        jobEvents W id log ++ (jobEvent W id (t, a)).toList := by
      rw [jobEvents, List.filterMap_append, List.filterMap_cons, List.filterMap_nil]
      cases jobEvent W id (t, a) <;> rfl
    rw [events, RetryJob.after_append, before]
    exact event

end WorkerPool

end Syrotp
