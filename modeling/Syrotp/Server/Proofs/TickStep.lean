import Syrotp.Server.WebhookWorker

/-!
# The steps of a tick

`TickStep` says once what a step of `webhookTick` can do, and `WorkerTurn` how the turn of a call
goes. Everything else about the workers is proved by cases on them.
-/

namespace Syrotp

variable {W : WebhookPlatform}

abbrev WorkerLog := List (WorkerPool × Act WorkerRequest WorkerMove)

/-- A request goes to an enabled endpoint at a URL that has passed the check, and names the delivery
and the attempt. -/
theorem deliver_ok {now : Time} {row : DueRow} {attempt : Nat} {request : DeliveryRequest}
    (h : deliver W now row attempt = .ok request) :
    row.enabled = true ∧ W.isUrlAllowedForDelivery request.url = true ∧
      request.webhookId = row.deliveryId ∧ request.attempt = attempt := by
  unfold deliver at h
  split at h
  · cases h
  · next enabled =>
    split at h
    · cases h
    · next allowed =>
      split at h
      · cases h
      · obtain rfl := Except.ok.inj h
        exact ⟨by simpa using enabled, by simpa using allowed, rfl, rfl⟩

/-- A request asks `fetch` to follow no redirect. -/
theorem deliver_manual {now : Time} {row : DueRow} {attempt : Nat} {request : DeliveryRequest}
    (h : deliver W now row attempt = .ok request) : request.redirect = .manual := by
  unfold deliver at h
  split at h
  · cases h
  · split at h
    · cases h
    · split at h
      · cases h
      · obtain rfl := Except.ok.inj h
        rfl

/-- Without a request, the endpoint was read as disabled or the outcome is permanent. -/
theorem deliver_error {now : Time} {row : DueRow} {attempt : Nat} {outcome : DeliveryOutcome}
    (h : deliver W now row attempt = .error outcome) :
    (outcome = .endpointDisabled ∧ row.enabled = false) ∨
      ∃ reason status message, outcome = .permanent reason status message := by
  unfold deliver at h
  split at h
  · next disabled =>
    obtain rfl := Except.error.inj h
    exact .inl ⟨rfl, by simpa using disabled⟩
  · split at h
    · obtain rfl := Except.error.inj h
      exact .inr ⟨_, _, _, rfl⟩
    · split at h
      · obtain rfl := Except.error.inj h
        exact .inr ⟨_, _, _, rfl⟩
      · exact nomatch h

/-- One step of a tick: the stage before, the stage after and the database it leaves. -/
inductive TickStep (W : WebhookPlatform) (locked : Id → Bool) (w : WorkerWorld) (db : Db) :
    WorkerPhase → WorkerPhase → Db → Prop
  | idle : selectDue db locked w = [] → TickStep W locked w db .select (.deliver []) db
  | selected : selectDue db locked w ≠ [] →
      TickStep W locked w db .select (.lease (selectDue db locked w)) db
  | leased {rows} : TickStep W locked w db (.lease rows) (.deliver rows)
      { db with webhookDeliveries := leaseRows w.now w.later rows db.webhookDeliveries }
  | refused {row rest outcome} : deliver W w.now row (row.attemptCount + 1) = .error outcome →
      TickStep W locked w db (.deliver (row :: rest)) (.applyOutcome row outcome rest) db
  | posted {row rest request} : deliver W w.now row (row.attemptCount + 1) = .ok request →
      TickStep W locked w db (.deliver (row :: rest)) (.fetch row request rest) db
  | answered {row request rest} : TickStep W locked w db (.fetch row request rest)
      (.applyOutcome row (deliveryOutcome w.response) rest) db
  | applied {row outcome rest} : locked row.deliveryId = false →
      TickStep W locked w db (.applyOutcome row outcome rest) (.deliver rest)
        { db with
          webhookDeliveries := updateWhere (fun d => d.id = row.deliveryId)
            (applyOutcome w.now w.later (row.attemptCount + 1) outcome) db.webhookDeliveries }

theorem webhookTick_step {locked : Id → Bool} {w : WorkerWorld} {db db' : Db}
    {phase phase' : WorkerPhase} (h : webhookTick W locked w db phase = some (phase', db')) :
    TickStep W locked w db phase phase' db' := by
  unfold webhookTick at h
  cases phase with
  | select =>
    dsimp only at h
    split at h
    · next none =>
      obtain ⟨rfl, rfl⟩ := Prod.mk.inj (Option.some.inj h)
      exact .idle none
    · next some =>
      obtain ⟨rfl, rfl⟩ := Prod.mk.inj (Option.some.inj h)
      exact .selected some
  | lease rows =>
    obtain ⟨rfl, rfl⟩ := Prod.mk.inj (Option.some.inj h)
    exact .leased
  | deliver rows =>
    cases rows with
    | nil => exact nomatch h
    | cons row rest =>
      dsimp only at h
      split at h
      · next outcome refused =>
        obtain ⟨rfl, rfl⟩ := Prod.mk.inj (Option.some.inj h)
        exact .refused refused
      · next request posted =>
        obtain ⟨rfl, rfl⟩ := Prod.mk.inj (Option.some.inj h)
        exact .posted posted
  | fetch row request rest =>
    obtain ⟨rfl, rfl⟩ := Prod.mk.inj (Option.some.inj h)
    exact .answered
  | applyOutcome row outcome rest =>
    simp only [Option.ite_none_left_eq_some] at h
    obtain ⟨free, h⟩ := h
    obtain ⟨rfl, rfl⟩ := Prod.mk.inj (Option.some.inj h)
    exact .applied (Bool.eq_false_iff.mpr free)
  | failed => exact nomatch h

/-- A row that is selected belongs to a delivery that is pending, due and not locked. -/
theorem selectDue_mem {db : Db} {locked : Id → Bool} {w : WorkerWorld} {row : DueRow}
    (h : row ∈ selectDue db locked w) : ∃ d ∈ db.webhookDeliveries, d.id = row.deliveryId ∧
      d.status = .pending ∧ d.nextAttemptAt ≤ w.dbNow ∧ locked d.id = false ∧
      d.attemptCount = row.attemptCount := by
  obtain ⟨d, due, joined⟩ := List.mem_filterMap.mp (List.mem_of_mem_take h)
  rw [dueDeliveries, List.mem_insertionSort, List.mem_filter, decide_eq_true_eq] at due
  obtain ⟨hd, pending, late, free⟩ := due
  unfold dueRow at joined
  split at joined
  · obtain rfl := Option.some.inj joined
    exact ⟨d, hd, rfl, pending, late, free, rfl⟩
  · exact nomatch joined

/-- How the turn of a call goes: a step, a failure before one, or a failure after it. -/
inductive WorkerTurn (W : WebhookPlatform) (store : WorkerStore) (locked : Id → Bool)
    (c : WorkerCall) : WorkerMove → Turn WorkerStore WorkerCall → Prop
  | ran {world store' c'} : c.step W store locked world = some (store', c') →
      WorkerTurn W store locked c (.run world) ⟨store', c', []⟩
  | error {f} : c.failed = some f → WorkerTurn W store locked c .error ⟨store, f, []⟩
  | lost {world store' c' f} : c.step W store locked world = some (store', c') →
      c.failed = some f → WorkerTurn W store locked c (.lost world) ⟨store', f, []⟩

theorem WorkerCall.turn_cases {store : WorkerStore} {others : List WorkerCall} {c : WorkerCall}
    {m : WorkerMove} {t : Turn WorkerStore WorkerCall} (h : c.turn W store others m = some t) :
    WorkerTurn W store (fun id => others.any fun o => id ∈ o.locks) c m t := by
  cases m with
  | run world =>
    obtain ⟨_, hr, rfl⟩ := Option.map_eq_some_iff.mp h
    exact .ran hr
  | error =>
    obtain ⟨_, hf, rfl⟩ := Option.map_eq_some_iff.mp h
    exact .error hf
  | lost world =>
    simp only [WorkerCall.turn] at h
    split at h
    · next _ _ hr hf =>
      obtain rfl := Option.some.inj h
      exact .lost hr hf
    · exact nomatch h

theorem WorkerCall.failed_rows {c f : WorkerCall} (h : c.failed = some f) : f.rows = [] := by
  cases c <;>
    simp only [WorkerCall.failed, Option.ite_none_left_eq_some, Option.some.injEq] at h <;>
    obtain ⟨_, rfl⟩ := h <;> rfl

/-- A step of a call is a step of its tick, or the commit of a transaction of the server. -/
inductive CallStep (W : WebhookPlatform) (store : WorkerStore) (locked : Id → Bool)
    (world : WorkerWorld) : WorkerCall → WorkerStore → WorkerCall → Prop
  | tick {phase phase' db'} : TickStep W locked world store.db phase phase' db' →
      CallStep W store locked world (.tick phase) ⟨db', store.drawn⟩ (.tick phase')
  | commit {w} : w.commits store locked = true → CallStep W store locked world (.commit w false)
      ⟨store.db.commit w, w.newDeliveries ++ store.drawn⟩ (.commit w true)

theorem WorkerCall.step_cases {store store' : WorkerStore} {c c' : WorkerCall}
    {locked : Id → Bool} {world : WorkerWorld}
    (h : c.step W store locked world = some (store', c')) :
    CallStep W store locked world c store' c' := by
  cases c with
  | tick phase =>
    simp only [WorkerCall.step, Option.map_eq_some_iff, Prod.mk.injEq] at h
    obtain ⟨⟨phase', db'⟩, ht, rfl, rfl⟩ := h
    exact .tick (webhookTick_step ht)
  | commit w isDone =>
    simp only [WorkerCall.step, Option.ite_none_right_eq_some, Bool.and_eq_true,
      Bool.not_eq_true', Option.some.injEq, Prod.mk.injEq] at h
    obtain ⟨⟨rfl, commits⟩, rfl, rfl⟩ := h
    exact .commit commits

end Syrotp
