import Syrotp.Server.Proofs.Delivery

/-!
# The lease

A row that a tick has claimed is kept from the others by its lock until the lease is written, and
by the lease from then on, for as long as the lease lasts. As long as no one selects a batch after
a lease has run out under a tick that still has rows, no row is in two batches.
-/

namespace Syrotp

variable {W : WebhookPlatform}

/-! ## What the log shows -/

/-- At this step a tick leased its rows: its position and the time. -/
def leasedAt (e : WorkerPool × Act WorkerRequest WorkerMove) : Option (Nat × Time) :=
  match e.2 with
  | .turn i (.run w) =>
    match e.1.calls[i]? with
    | some (.tick (.lease _)) => some (i, w.now)
    | _ => none
  | _ => none

/-- At this step a tick selected its batch, by the clock of the database. -/
def selectedAt (e : WorkerPool × Act WorkerRequest WorkerMove) : Option Time :=
  match e.2 with
  | .turn i (.run w) =>
    match e.1.calls[i]? with
    | some (.tick .select) => some w.dbNow
    | _ => none
  | _ => none

/-- The rows that the call at position `i` has to process. -/
def WorkerPool.rowsOf (p : WorkerPool) (i : Nat) : List DueRow :=
  (p.calls[i]?.map WorkerCall.rows).getD []

/-- If a batch is selected at the later step, a batch leased at the earlier one and still being
processed is under its lease. -/
def leaseCovers (e e' : WorkerPool × Act WorkerRequest WorkerMove) : Bool :=
  match leasedAt e, selectedAt e' with
  | some (i, claimed), some selected =>
    (e'.1.rowsOf i).isEmpty || selected < claimed + inFlightLeaseSeconds * 1000
  | _, _ => true

/-- At this step a request was sent: the position of the tick, the delivery and the attempt. -/
def posts (W : WebhookPlatform) (e : WorkerPool × Act WorkerRequest WorkerMove) :
    Option (Nat × Id × Nat) :=
  match e.2 with
  | .turn i m =>
    match m.world?, e.1.calls[i]? with
    | some w, some (.tick (.deliver (row :: _))) =>
      match deliver W w.now row (row.attemptCount + 1) with
      | .ok request => some (i, request.webhookId, request.attempt)
      | .error _ => none
    | _, _ => none
  | .arrive _ => none

/-! ## What a step leaves alone -/

/-- The rows a call writes in its next step. -/
def WorkerCall.touches : WorkerCall → List Id
  | .tick (.lease rows) => rows.map (·.deliveryId)
  | .tick (.applyOutcome row _ _) => [row.deliveryId]
  | _ => []

theorem WorkerCall.touches_rows {c : WorkerCall} {id : Id} (h : id ∈ c.touches) :
    id ∈ c.rows.map (·.deliveryId) := by
  unfold WorkerCall.touches at h
  split at h
  · exact h
  · exact List.mem_cons.mpr (.inl (List.mem_singleton.mp h))
  · exact absurd h List.not_mem_nil

/-- Of the deliveries there have been, those outside a list are as they were. -/
structure WorkerStore.Keeps (s t : WorkerStore) (touched : List Id) : Prop where
  rows : ∀ d ∈ t.db.webhookDeliveries, d.id ∈ s.drawn → d.id ∉ touched →
    d ∈ s.db.webhookDeliveries

theorem WorkerStore.Keeps.refl (s : WorkerStore) (touched : List Id) : s.Keeps s touched :=
  ⟨fun _ hd _ _ => hd⟩

theorem WorkerStore.keeps_update {s : WorkerStore} {p : WebhookDelivery → Bool}
    {f : WebhookDelivery → WebhookDelivery} {touched : List Id} (key : ∀ d, (f d).id = d.id)
    (hits : ∀ d, p d = true → d.id ∈ touched) :
    s.Keeps ⟨{ s.db with
      webhookDeliveries := updateWhere p f s.db.webhookDeliveries }, s.drawn⟩ touched := by
  refine ⟨fun d hd _ apart => ?_⟩
  rcases mem_updateWhere_cases hd with ⟨d, _, hit, rfl⟩ | ⟨old, _⟩
  · rw [key] at apart
    exact absurd (hits d hit) apart
  · exact old

/-- A step leaves alone what it does not write. -/
theorem WorkerCall.step_keeps {store store' : WorkerStore} {c c' : WorkerCall}
    {locked : Id → Bool} {world : WorkerWorld}
    (h : c.step W store locked world = some (store', c')) :
    store.Keeps store' c.touches := by
  cases WorkerCall.step_cases h with
  | @commit w commits =>
    simp only [Write.commits, Bool.and_eq_true, decide_eq_true_eq, List.all_eq_true] at commits
    obtain ⟨⟨_, fresh⟩, _⟩ := commits
    obtain ⟨kept, added, deliveries, old, new⟩ := WorkerStore.commit_deliveries store.db w
    refine ⟨fun d hd drawn _ => ?_⟩
    rcases List.mem_append.mp (deliveries ▸ hd) with hd | hd
    · exact old.subset hd
    · exact absurd drawn (fresh d.id (new ▸ List.mem_map_of_mem hd))
  | tick ht =>
    cases ht with
    | idle => exact .refl _ _
    | selected => exact .refl _ _
    | refused => exact .refl _ _
    | posted => exact .refl _ _
    | answered => exact .refl _ _
    | leased => exact WorkerStore.keeps_update (fun _ => rfl) fun _ hit => of_decide_eq_true hit
    | applied =>
      exact WorkerStore.keeps_update (fun _ => applyOutcome_id ..) fun _ hit =>
        List.mem_singleton.mpr (of_decide_eq_true hit)

/-! ## Rows that are held -/

/-- The rows of a batch are distinct deliveries. -/
theorem selectDue_keys {db : Db} (keys : (db.webhookDeliveries.map (·.id)).Nodup)
    (locked : Id → Bool) (w : WorkerWorld) :
    ((selectDue db locked w).map (·.deliveryId)).Nodup := by
  have due : ((dueDeliveries db locked w).map (·.id)).Nodup := by
    unfold dueDeliveries
    refine (((List.perm_insertionSort _ _).map _).nodup_iff).mpr ?_
    exact keys.sublist (List.filter_sublist.map _)
  have joined : ∀ ds : List WebhookDelivery,
      ((ds.filterMap (dueRow db)).map (·.deliveryId)).Sublist (ds.map (·.id)) := by
    intro ds
    induction ds with
    | nil => exact .slnil
    | cons d ds ih =>
      rw [List.filterMap_cons]
      split
      · exact ih.cons _
      · next row same =>
        have key : row.deliveryId = d.id := by
          unfold dueRow at same
          split at same
          · rw [← Option.some.inj same]
          · exact nomatch same
        rw [List.map_cons, List.map_cons, key]
        exact ih.cons_cons _
  exact (due.sublist (joined _)).sublist ((List.take_sublist _ _).map _)

/-- What is true of the rows a call holds: they are distinct and untried, and each is locked or
under the lease that the log shows. -/
structure WorkerCall.Holds (log : WorkerLog) (store : WorkerStore) (i : Nat) (c : WorkerCall) :
    Prop where
  keys : (c.rows.map (·.deliveryId)).Nodup
  untried : ∀ row ∈ c.rows, store.Untried row
  leased : ∀ row ∈ c.rows, row.deliveryId ∈ c.locks ∨ ∃ e ∈ log, ∃ t, leasedAt e = some (i, t) ∧
    ∀ d ∈ store.db.webhookDeliveries, d.id = row.deliveryId →
      d.nextAttemptAt = t + inFlightLeaseSeconds * 1000

namespace WorkerCall

variable {log log' : WorkerLog} {store store' : WorkerStore} {i : Nat} {c c' : WorkerCall}

theorem Holds.none (h : c.rows = []) : c.Holds log store i := by
  have empty : ∀ row, row ∉ c.rows := fun row hr => absurd (h ▸ hr) List.not_mem_nil
  refine ⟨?_, fun row hr => absurd hr (empty row), fun row hr => absurd hr (empty row)⟩
  rw [h]
  exact List.nodup_nil

/-- The rows are held on while others are written. -/
theorem Holds.frame {touched : List Id} (h : c.Holds log store i)
    (known : ∀ row ∈ c.rows, row.deliveryId ∈ store.drawn) (keeps : store.Keeps store' touched)
    (apart : ∀ row ∈ c.rows, row.deliveryId ∉ touched) (sub : ∀ e ∈ log, e ∈ log') :
    c.Holds log' store' i := by
  have back : ∀ row ∈ c.rows, ∀ d ∈ store'.db.webhookDeliveries, d.id = row.deliveryId →
      d ∈ store.db.webhookDeliveries := fun row hr d hd same =>
    keeps.rows d hd (same ▸ known row hr) (same ▸ apart row hr)
  refine ⟨h.keys, fun row hr d hd same => ?_, fun row hr => ?_⟩
  · exact h.untried row hr d (back row hr d hd same) same
  · rcases h.leased row hr with lock | ⟨e, logged, t, at_t, lease⟩
    · exact .inl lock
    · refine .inr ⟨e, sub e logged, t, at_t, fun d hd same => ?_⟩
      exact lease d (back row hr d hd same) same

/-- So they are by the next stage of the call, if it has the same ones and locks. -/
theorem Holds.goOn (h : c.Holds log store i) (rows : c'.rows = c.rows)
    (locks : c'.locks = c.locks) : c'.Holds log store i := by
  refine ⟨rows ▸ h.keys, ?_, ?_⟩
  · rw [rows]
    exact h.untried
  · rw [rows, locks]
    exact h.leased

end WorkerCall

/-- The store is sound, and each call holds its rows, which are no other's. -/
structure WorkerPool.Leased (log : WorkerLog) (p : WorkerPool) : Prop where
  sound : p.Sound
  holds : ∀ (i : Nat) (c : WorkerCall), p.calls[i]? = some c → c.Holds log p.store i
  apart : Pool.Exclusive (fun c : WorkerCall => c.rows.map (·.deliveryId)) p.calls

namespace WorkerPool

variable {log : WorkerLog} {p q : WorkerPool}

/-- A row that another call holds is not selected. -/
theorem Leased.not_selected (h : p.Leased log) {i j : Nat} {w : WorkerWorld} {c : WorkerCall}
    (covered : ∀ e ∈ log, leaseCovers e (p, .turn i (.run w)) = true)
    (hi : p.calls[i]? = some (.tick .select)) (ne : j ≠ i) (hj : p.calls[j]? = some c)
    {row row' : DueRow}
    (selected : row ∈ selectDue p.store.db
      (fun id => (p.others i).any fun o => id ∈ o.locks) w) (held : row' ∈ c.rows) :
    row'.deliveryId ≠ row.deliveryId := by
  intro same
  obtain ⟨d, hd, key, _, due, free, _⟩ := selectDue_mem selected
  rcases (h.holds j c hj).leased row' held with lock | ⟨e, logged, t, leased, lease⟩
  · have locked : ((p.others i).any fun o => d.id ∈ o.locks) = true := by
      refine List.any_eq_true.mpr ⟨c, Pool.mem_others.mpr ⟨j, ne, hj⟩, ?_⟩
      rw [key, ← same]
      exact decide_eq_true lock
    rw [locked] at free
    exact nomatch free
  · have busy : (p.rowsOf j).isEmpty = false := by
      rw [rowsOf, hj]
      exact Bool.eq_false_iff.mpr fun none => List.ne_nil_of_mem held (List.isEmpty_iff.mp none)
    have under := covered e logged
    have selection : selectedAt (p, .turn i (.run w)) = some w.dbNow := by
      simp only [selectedAt, hi]
    simp only [leaseCovers, leased, selection, busy, Bool.false_or,
      decide_eq_true_eq] at under
    rw [lease d hd (key.trans same.symm)] at due
    exact Nat.lt_irrefl _ (Nat.lt_of_lt_of_le under due)

/-- What a call goes on with after a step is held. -/
theorem Leased.holds_step (h : p.Leased log) {i : Nat} {c c' : WorkerCall} {w : WorkerWorld}
    {store' : WorkerStore} (hc : p.calls[i]? = some c)
    (hs : c.step W p.store (fun id => (p.others i).any fun o => id ∈ o.locks) w =
      some (store', c')) :
    c'.Holds (log ++ [(p, .turn i (.run w))]) store' i := by
  have sub : ∀ e ∈ log, e ∈ log ++ [(p, .turn i (.run w))] := fun _ => List.mem_append_left _
  have mine := h.holds i c hc
  have known : ∀ row ∈ c.rows, row.deliveryId ∈ p.store.drawn := fun row hr =>
    (h.sound.claimed i c hc row hr).drawn
  have keeps := WorkerCall.step_keeps hs
  cases WorkerCall.step_cases hs with
  | commit => exact .none rfl
  | tick ht =>
    cases ht with
    | idle => exact .none rfl
    | selected =>
      refine ⟨selectDue_keys h.sound.wellFormed.keys _ _, fun row hr d hd same => ?_, fun row hr =>
        .inl (List.mem_map_of_mem hr)⟩
      obtain ⟨d₀, hd₀, key, _, _, _, attempts⟩ := selectDue_mem hr
      obtain rfl : d = d₀ := eq_of_key h.sound.wellFormed.keys hd hd₀ (same.trans key.symm)
      exact attempts
    | @leased rows =>
      refine ⟨mine.keys, fun row hr d hd same => ?_, fun row hr =>
        .inr ⟨_, List.mem_append_right _ (List.mem_singleton.mpr rfl), w.now, ?_,
          fun d hd same => ?_⟩⟩
      · rcases mem_updateWhere_cases hd with ⟨d, old, _, rfl⟩ | ⟨old, _⟩
        · exact mine.untried row hr d old same
        · exact mine.untried row hr d old same
      · simp only [leasedAt, hc]
      · rcases mem_updateWhere_cases hd with ⟨d, _, _, rfl⟩ | ⟨_, missed⟩
        · rfl
        · exact absurd (same ▸ List.mem_map_of_mem hr) (of_decide_eq_false missed)
    | refused => exact (mine.frame known keeps (fun _ _ => List.not_mem_nil) sub).goOn rfl rfl
    | posted => exact (mine.frame known keeps (fun _ _ => List.not_mem_nil) sub).goOn rfl rfl
    | answered => exact (mine.frame known keeps (fun _ _ => List.not_mem_nil) sub).goOn rfl rfl
    | @applied row outcome rest _ =>
      obtain ⟨others, keys⟩ := List.nodup_cons.mp mine.keys
      have tail : (WorkerCall.tick (.deliver rest)).Holds log p.store i :=
        ⟨keys, fun row hr => mine.untried row (List.mem_cons_of_mem _ hr),
          fun row hr => mine.leased row (List.mem_cons_of_mem _ hr)⟩
      refine tail.frame (fun row hr => known row (List.mem_cons_of_mem _ hr)) keeps
        (fun r hr touched => ?_) sub
      have same : r.deliveryId = row.deliveryId := List.mem_singleton.mp touched
      exact others (List.mem_map.mpr ⟨r, hr, same⟩)

/-- The rows of the next stage are those of the call, or no other call holds them. -/
theorem Leased.acquires (h : p.Leased log) {i : Nat} {c c' : WorkerCall} {w : WorkerWorld}
    {store' : WorkerStore} (covered : ∀ e ∈ log, leaseCovers e (p, .turn i (.run w)) = true)
    (hc : p.calls[i]? = some c)
    (hs : c.step W p.store (fun id => (p.others i).any fun o => id ∈ o.locks) w =
      some (store', c')) :
    ∀ id ∈ c'.rows.map (·.deliveryId), id ∈ c.rows.map (·.deliveryId) ∨
      ∀ o ∈ p.others i, id ∉ o.rows.map (·.deliveryId) := by
  cases WorkerCall.step_cases hs with
  | commit => exact fun _ hr => absurd hr List.not_mem_nil
  | tick ht =>
    cases ht with
    | idle => exact fun _ hr => absurd hr List.not_mem_nil
    | selected =>
      intro id hid
      obtain ⟨row, selected, rfl⟩ := List.mem_map.mp hid
      refine .inr fun o ho held => ?_
      obtain ⟨j, ne, hj⟩ := Pool.mem_others.mp ho
      obtain ⟨row', held, same⟩ := List.mem_map.mp held
      exact h.not_selected covered hc ne hj selected held same
    | leased => exact fun _ => .inl
    | refused => exact fun _ => .inl
    | posted => exact fun _ => .inl
    | answered => exact fun _ => .inl
    | applied => exact fun _ hid => .inl (List.mem_cons_of_mem _ hid)

/-- Such a pool writes only to rows that were not tried since they were claimed. -/
theorem Leased.writesUntried (h : p.Leased log) (a : Act WorkerRequest WorkerMove) :
    p.WritesUntried a := by
  intro i m c row _ _ hc writes
  cases c with
  | commit w isDone => exact nomatch writes
  | tick phase =>
    cases phase with
    | applyOutcome r outcome rest =>
      obtain rfl := Option.some.inj writes
      exact (h.holds i _ hc).untried r List.mem_cons_self
    | _ => exact nomatch writes

/-- A step keeps all this, if a batch selected by it leaves the leased ones alone. -/
theorem Leased.step {a : Act WorkerRequest WorkerMove} (h : p.Leased log)
    (covered : ∀ e ∈ log, leaseCovers e (p, a) = true)
    (hs : p.step (webhookWorkers W) a = some q) : q.Leased (log ++ [(p, a)]) := by
  obtain ⟨sound, _⟩ := h.sound.step (h.writesUntried a) hs
  have sub : ∀ e ∈ log, e ∈ log ++ [(p, a)] := fun _ => List.mem_append_left _
  have known : ∀ (j : Nat) (x : WorkerCall), p.calls[j]? = some x → ∀ row ∈ x.rows,
      row.deliveryId ∈ p.store.drawn := fun j x hj row hr => (h.sound.claimed j x hj row hr).drawn
  cases a with
  | arrive r =>
    obtain ⟨n, hn, rfl⟩ := Pool.step_arrive hs
    have idle : n.rows = [] := by
      cases r <;> obtain rfl := Option.some.inj hn <;> rfl
    refine ⟨sound, fun j x hj => ?_, Pool.exclusive_append h.apart fun x hx => ?_⟩
    · rcases Nat.lt_or_ge j p.calls.length with inside | outside
      · rw [List.getElem?_append_left inside] at hj
        exact (h.holds j x hj).frame (known j x hj) (.refl _ []) (fun _ _ => List.not_mem_nil) sub
      · rw [List.getElem?_append_right outside] at hj
        obtain rfl := List.mem_singleton.mp (List.mem_of_getElem? hj)
        exact .none idle
    · obtain rfl := List.mem_singleton.mp hx
      rw [idle]
      rfl
  | turn i m =>
    obtain ⟨c, t, hc, ht, rfl⟩ := Pool.step_turn hs
    suffices turned : t.spawned = [] ∧ p.store.Keeps t.store c.touches ∧
        t.call.Holds (log ++ [(p, .turn i m)]) t.store i ∧
        ∀ id ∈ t.call.rows.map (·.deliveryId), id ∈ c.rows.map (·.deliveryId) ∨
          ∀ o ∈ p.others i, id ∉ o.rows.map (·.deliveryId) by
      obtain ⟨spawned, keeps, self, acquires⟩ := turned
      refine ⟨sound, fun j x hj => ?_, ?_⟩
      · rcases Pool.turned_call hc hj with ⟨ne, hj⟩ | ⟨rfl, rfl⟩ | ⟨_, new⟩
        · refine (h.holds j x hj).frame (known j x hj) keeps (fun row hr touched => ?_) sub
          exact h.apart j i x c hj hc ne _ (List.mem_map_of_mem hr)
            (WorkerCall.touches_rows touched)
        · exact self
        · rw [spawned] at new
          exact absurd new List.not_mem_nil
      · rw [spawned, List.append_nil]
        exact Pool.exclusive_set h.apart hc acquires
    cases WorkerCall.turn_cases ht with
    | ran hr =>
      exact ⟨rfl, WorkerCall.step_keeps hr, h.holds_step hc hr, h.acquires covered hc hr⟩
    | error hf =>
      have empty := WorkerCall.failed_rows hf
      exact ⟨rfl, .refl _ _, .none empty, fun id hid => by simp [empty] at hid⟩
    | lost hr hf =>
      have empty := WorkerCall.failed_rows hf
      exact ⟨rfl, WorkerCall.step_keeps hr, .none empty, fun id hid => by simp [empty] at hid⟩

/-! ## Attempts that were posted -/

/-- The tick at position `i` is waiting for the answer to this attempt, or is writing it back. -/
def Trying (p : WorkerPool) (i : Nat) (id : Id) (attempt : Nat) : Prop :=
  ∃ row rest, id = row.deliveryId ∧ attempt = row.attemptCount + 1 ∧
    ((∃ request, p.calls[i]? = some (.tick (.fetch row request rest))) ∨
      ∃ outcome, p.calls[i]? = some (.tick (.applyOutcome row outcome rest)))

/-- This attempt is over: whoever holds the delivery has a later one before it. -/
structure Tried (p : WorkerPool) (id : Id) (attempt : Nat) : Prop where
  drawn : id ∈ p.store.drawn
  rows : ∀ d ∈ p.store.db.webhookDeliveries, d.id = id → attempt ≤ d.attemptCount
  held : ∀ (j : Nat) (c : WorkerCall), p.calls[j]? = some c → ∀ row ∈ c.rows,
    row.deliveryId = id → attempt ≤ row.attemptCount

/-- What became of an attempt that was posted: its worker has stopped, is at it, or was. -/
def Posted (p : WorkerPool) (i : Nat) (id : Id) (attempt : Nat) : Prop :=
  p.calls[i]? = some (.tick .failed) ∨ p.Trying i id attempt ∨ p.Tried id attempt

variable {i : Nat} {id : Id} {attempt : Nat} {a : Act WorkerRequest WorkerMove}

/-- An attempt that is over stays over. -/
theorem Tried.step (h : p.Tried id attempt) (leased : p.Leased log)
    (hs : p.step (webhookWorkers W) a = some q) : q.Tried id attempt := by
  obtain ⟨_, continues⟩ := leased.sound.step (leased.writesUntried a) hs
  refine ⟨continues.drawn id h.drawn, fun d' hd' same => ?_, fun j x hj row hr same => ?_⟩
  · obtain ⟨d, hd, key, evolves⟩ := continues.rows d' hd' (same ▸ h.drawn)
    exact Nat.le_trans (h.rows d hd (key.trans same)) evolves.attempts
  cases a with
  | arrive r =>
    obtain ⟨n, hn, rfl⟩ := Pool.step_arrive hs
    rcases List.mem_append.mp (List.mem_of_getElem? hj) with old | new
    · obtain ⟨j, hj⟩ := List.mem_iff_getElem?.mp old
      exact h.held j x hj row hr same
    · obtain rfl := List.mem_singleton.mp new
      cases r <;> obtain rfl := Option.some.inj hn <;> exact absurd hr List.not_mem_nil
  | turn k m =>
    obtain ⟨c, t, hc, ht, rfl⟩ := Pool.step_turn hs
    rcases Pool.turned_call hc hj with ⟨_, hj⟩ | ⟨_, rfl⟩ | ⟨_, new⟩
    · exact h.held j x hj row hr same
    · cases WorkerCall.turn_cases ht with
      | ran ran =>
        cases WorkerCall.step_cases ran with
        | commit => exact absurd hr List.not_mem_nil
        | tick tick =>
          cases tick with
          | idle => exact absurd hr List.not_mem_nil
          | selected =>
            obtain ⟨d, hd, key, _, _, _, attempts⟩ := selectDue_mem hr
            exact attempts ▸ h.rows d hd (key.trans same)
          | leased => exact h.held k _ hc row hr same
          | refused => exact h.held k _ hc row hr same
          | posted => exact h.held k _ hc row hr same
          | answered => exact h.held k _ hc row hr same
          | applied => exact h.held k _ hc row (List.mem_cons_of_mem _ hr) same
      | error failed =>
        rw [WorkerCall.failed_rows failed] at hr
        exact absurd hr List.not_mem_nil
      | lost _ failed =>
        rw [WorkerCall.failed_rows failed] at hr
        exact absurd hr List.not_mem_nil
    · cases WorkerCall.turn_cases ht <;> exact absurd new List.not_mem_nil

/-- A tick that fails has stopped. -/
theorem failed_tick {phase : WorkerPhase} {f : WorkerCall}
    (h : (WorkerCall.tick phase).failed = some f) : f = .tick .failed :=
  (Option.some.inj (Option.ite_none_left_eq_some.mp h).2).symm

/-- When the outcome has been written, the attempt is over. -/
theorem Leased.applied (h : p.Leased log) {row : DueRow} {outcome : DeliveryOutcome}
    {rest : List DueRow} {w : WorkerWorld}
    (hi : p.calls[i]? = some (.tick (.applyOutcome row outcome rest))) :
    Tried ⟨⟨{ p.store.db with
        webhookDeliveries := updateWhere (fun d => d.id = row.deliveryId)
          (applyOutcome w.now w.later (row.attemptCount + 1) outcome) p.store.db.webhookDeliveries },
        p.store.drawn⟩, p.calls.set i (.tick (.deliver rest)) ++ []⟩
      row.deliveryId (row.attemptCount + 1) := by
  refine ⟨(h.sound.claimed i _ hi row List.mem_cons_self).drawn, fun d hd same => ?_,
    fun j x hj r hr same => ?_⟩
  · rcases mem_updateWhere_cases hd with ⟨d, _, _, rfl⟩ | ⟨_, missed⟩
    · exact Nat.le_of_eq (applyOutcome_attemptCount ..).symm
    · exact absurd same (of_decide_eq_false missed)
  · obtain ⟨others, _⟩ := List.nodup_cons.mp (h.holds i _ hi).keys
    rcases Pool.turned_call (t := ⟨p.store, _, []⟩) hi hj with ⟨ne, hj⟩ | ⟨_, rfl⟩ | ⟨_, new⟩
    · exact absurd (List.mem_map.mpr ⟨r, hr, same⟩)
        (h.apart i j _ x hi hj (Ne.symm ne) _ (List.mem_map_of_mem List.mem_cons_self))
    · exact absurd (List.mem_map.mpr ⟨r, hr, same⟩) others
    · exact absurd new List.not_mem_nil

/-- A tick goes on trying, stops, or is done. -/
theorem Posted.step (h : p.Posted i id attempt) (leased : p.Leased log)
    (hs : p.step (webhookWorkers W) a = some q) : q.Posted i id attempt := by
  rcases h with failed | ⟨row, rest, rfl, rfl, trying⟩ | tried
  · rcases Pool.step_call hs failed with stays | ⟨m, t, rfl, ht, rfl⟩
    · exact .inl stays
    · cases WorkerCall.turn_cases ht with
      | ran ran => exact nomatch ran
      | error none => exact nomatch none
      | lost ran => exact nomatch ran
  · rcases trying with ⟨request, hi⟩ | ⟨outcome, hi⟩
    · rcases Pool.step_call hs hi with stays | ⟨m, t, rfl, ht, rfl⟩
      · exact .inr (.inl ⟨row, rest, rfl, rfl, .inl ⟨request, stays⟩⟩)
      · cases WorkerCall.turn_cases ht with
        | ran ran =>
          cases WorkerCall.step_cases ran with
          | tick tick =>
            cases tick with
            | answered =>
              exact .inr (.inl ⟨row, rest, rfl, rfl, .inr ⟨_, Pool.turned_self hi⟩⟩)
        | error failed => exact .inl (failed_tick failed ▸ Pool.turned_self hi)
        | lost _ failed => exact .inl (failed_tick failed ▸ Pool.turned_self hi)
    · rcases Pool.step_call hs hi with stays | ⟨m, t, rfl, ht, rfl⟩
      · exact .inr (.inl ⟨row, rest, rfl, rfl, .inr ⟨outcome, stays⟩⟩)
      · cases WorkerCall.turn_cases ht with
        | ran ran =>
          cases WorkerCall.step_cases ran with
          | tick tick =>
            cases tick with
            | applied => exact .inr (.inr (leased.applied hi))
        | error failed => exact .inl (failed_tick failed ▸ Pool.turned_self hi)
        | lost _ failed => exact .inl (failed_tick failed ▸ Pool.turned_self hi)
  · exact .inr (.inr (tried.step leased hs))

theorem posts_eq_some {e : WorkerPool × Act WorkerRequest WorkerMove}
    (h : posts W e = some (i, id, attempt)) : ∃ m w row rest request, e.2 = .turn i m ∧
      m.world? = some w ∧ e.1.calls[i]? = some (.tick (.deliver (row :: rest))) ∧
      deliver W w.now row (row.attemptCount + 1) = .ok request ∧
      id = row.deliveryId ∧ attempt = row.attemptCount + 1 := by
  unfold posts at h
  split at h
  · next j m acts =>
    split at h
    · next w row rest hw hj =>
      split at h
      · next request ok =>
        obtain ⟨rfl, rfl, rfl⟩ := by simpa using h
        exact ⟨m, w, row, rest, request, acts, hw, hj, ok, (deliver_ok ok).2.2⟩
      · exact nomatch h
    · exact nomatch h
  · exact nomatch h

/-- After a post the tick is waiting for its answer, or has stopped. -/
theorem posted_of_posts (posting : posts W (p, a) = some (i, id, attempt))
    (hs : p.step (webhookWorkers W) a = some q) : q.Posted i id attempt := by
  obtain ⟨m, w, row, rest, request, rfl, hw, hi, ok, rfl, rfl⟩ := posts_eq_some posting
  obtain ⟨c, t, hc, ht, rfl⟩ := Pool.step_turn hs
  obtain rfl : c = .tick (.deliver (row :: rest)) := Option.some.inj (hc.symm.trans hi)
  cases WorkerCall.turn_cases ht with
  | ran ran =>
    obtain rfl := Option.some.inj hw
    cases WorkerCall.step_cases ran with
    | tick tick =>
      cases tick with
      | refused refused => exact nomatch ok.symm.trans refused
      | posted => exact .inr (.inl ⟨row, rest, rfl, rfl, .inl ⟨_, Pool.turned_self hi⟩⟩)
  | error => exact nomatch hw
  | lost _ failed => exact .inl (failed_tick failed ▸ Pool.turned_self hi)

/-- An attempt that was posted is only posted again when the first worker has stopped. -/
theorem Posted.again {k : Nat} (h : p.Posted i id attempt) (leased : p.Leased log)
    (posting : posts W (p, a) = some (k, id, attempt)) :
    p.calls[i]? = some (.tick .failed) := by
  obtain ⟨m, w, row, rest, request, rfl, _, hk, _, rfl, rfl⟩ := posts_eq_some posting
  rcases h with failed | ⟨row', rest', sameId, sameAttempt, trying⟩ | tried
  · exact failed
  · have held : ∃ c, p.calls[i]? = some c ∧ row' ∈ c.rows ∧
        c ≠ .tick (.deliver (row :: rest)) := by
      rcases trying with ⟨_, hi⟩ | ⟨_, hi⟩
      · exact ⟨_, hi, List.mem_cons_self, nofun⟩
      · exact ⟨_, hi, List.mem_cons_self, nofun⟩
    obtain ⟨c, hi, hr, differs⟩ := held
    by_cases same : i = k
    · subst same
      exact absurd (Option.some.inj (hi.symm.trans hk)) differs
    · have mine : row'.deliveryId ∈ c.rows.map (·.deliveryId) := List.mem_map_of_mem hr
      have theirs : row'.deliveryId ∈ (WorkerCall.tick (.deliver (row :: rest))).rows.map
          (·.deliveryId) := List.mem_map.mpr ⟨row, List.mem_cons_self, sameId⟩
      exact absurd theirs (leased.apart i k c _ hi hk same _ mine)
  · exact absurd (tried.held k _ hk row List.mem_cons_self rfl) (Nat.not_succ_le_self _)

end WorkerPool

/-! ## Runs -/

/-- At this step no leased batch has outlived its lease: whenever a batch is selected, the others
that still have rows have leased them less than `IN_FLIGHT_LEASE_SECONDS` before. -/
def Covered (log : WorkerLog) : Prop := log.Pairwise fun e e' => leaseCovers e e' = true

/-- In a run in which leases cover the work no row is in two batches at once, and no attempt is
posted twice unless the first worker to post it has stopped. -/
theorem lease_covers {store : WorkerStore} (wf : store.WellFormed) {log : WorkerLog}
    {q : WorkerPool} (run : WorkerRun W store log q) (covered : Covered log) :
    Pool.Exclusive (fun c : WorkerCall => c.rows.map (·.deliveryId)) q.calls ∧
    log.Pairwise fun e e' => ∀ i k id attempt, posts W e = some (i, id, attempt) →
      posts W e' = some (k, id, attempt) → e'.1.calls[i]? = some (.tick .failed) := by
  suffices h : q.Leased log ∧
      (∀ e ∈ log, ∀ i id n, posts W e = some (i, id, n) → q.Posted i id n) ∧
      log.Pairwise fun e e' => ∀ i k id attempt, posts W e = some (i, id, attempt) →
        posts W e' = some (k, id, attempt) → e'.1.calls[i]? = some (.tick .failed) from
    ⟨h.1.apart, h.2.2⟩
  induction run with
  | start =>
    refine ⟨⟨⟨wf, ?_⟩, ?_, ?_⟩, fun _ he => absurd he List.not_mem_nil, .nil⟩
    · exact fun i c hc => by simp at hc
    · exact fun i c hc => by simp at hc
    · exact fun i j a b ha => by simp at ha
  | @next log t u a run hs ih =>
    obtain ⟨before, _, last⟩ := List.pairwise_append.mp covered
    obtain ⟨leased, posted, once⟩ := ih before
    refine ⟨leased.step (fun e he => last e he _ (List.mem_singleton.mpr rfl)) hs, ?_, ?_⟩
    · intro e he i id n posting
      rcases List.mem_append.mp he with he | he
      · exact (posted e he i id n posting).step leased hs
      · obtain rfl := List.mem_singleton.mp he
        exact WorkerPool.posted_of_posts posting hs
    · refine List.pairwise_append.mpr ⟨once, List.pairwise_singleton _ _, ?_⟩
      intro e he e' he' i k id n posting again
      obtain rfl := List.mem_singleton.mp he'
      exact (posted e he i id n posting).again leased again

namespace WorkerScript

/-- One worker tries the delivery, and when it is due again another one does. -/
def takeTurns : List (Act WorkerRequest WorkerMove) :=
  ticks ++ delivers 0 60 (.ok 503) ++ delivers 1 91 (.ok 200)

theorem takeTurns_run : ∃ log q, WorkerRun platform store log q ∧
    (log.Pairwise fun e e' => leaseCovers e e' = true) ∧
    ∀ p ∈ [(0, 1), (1, 2)], ∃ e ∈ log, posts platform e = some (p.1, delivery.id, p.2) :=
  exists_runFrom platform store takeTurns (by decide +kernel)

end WorkerScript

/-- Both workers post the delivery, and they post different attempts. -/
theorem lease_covers_script :
    ∃ log q, WorkerRun WorkerScript.platform WorkerScript.store log q ∧
      (∃ e ∈ log, posts WorkerScript.platform e = some (0, WorkerScript.delivery.id, 1)) ∧
      (∃ e ∈ log, posts WorkerScript.platform e = some (1, WorkerScript.delivery.id, 2)) ∧
      log.Pairwise fun e e' => ∀ i k id attempt,
        posts WorkerScript.platform e = some (i, id, attempt) →
          posts WorkerScript.platform e' = some (k, id, attempt) →
            e'.1.calls[i]? = some (.tick .failed) := by
  obtain ⟨log, q, run, covered, posted⟩ := WorkerScript.takeTurns_run
  have held := lease_covers ⟨by decide +kernel, by decide +kernel⟩ run covered
  exact ⟨log, q, run, posted (0, 1) (by decide), posted (1, 2) (by decide), held.2⟩

/-! ## A batch that takes too long -/

/-- `HTTP_TIMEOUT_MS`. -/
def httpTimeoutMs : Nat := 5000

/-- No worker fails and all read one clock, which does not go back; a tick only waits for answers,
and for none longer than `HTTP_TIMEOUT_MS`. -/
def prompt (last : Nat → Option Time) (clock : Time) : WorkerLog → Bool
  | [] => true
  | (p, .turn i (.run w)) :: rest =>
    let inTime : Bool :=
      match last i, p.calls[i]? with
      | none, _ => true
      | some t, some (.tick (.fetch ..)) => w.now ≤ t + httpTimeoutMs
      | some t, _ => w.now = t
    decide (w.now = w.dbNow) && decide (clock ≤ w.now) && inTime &&
      prompt (fun j => if j = i then some w.now else last j) w.now rest
  | (_, .turn _ _) :: _ => false
  | (_, .arrive _) :: rest => prompt last clock rest

namespace WorkerScript

/-- The event of the verification with this number, verified at the start. -/
def eventOf (n : Nat) : WebhookEvent :=
  eventRow .verified app
    ⟨newId .verification n, .verified, text "+96399****567", text "login", none, some start, none,
      none⟩ (newId .webhookEvent n) start

def deliveryOf (n : Nat) : WebhookDelivery :=
  deliveryRow .verified (eventOf n).id start (newId .webhookDelivery n, endpoint.id)

def numbers : List Nat := List.range' 1 13

/-- Thirteen verifications have just been reported to one endpoint. -/
def busyStore : WorkerStore :=
  ⟨{ Db.empty with
      webhookEndpoints := [endpoint], webhookEvents := numbers.map eventOf
      webhookDeliveries := numbers.map deliveryOf },
    numbers.map fun n => (deliveryOf n).id⟩

/-- The signatures of their payloads at the times they are posted. -/
def signatures : List (Nat × Nat × Text) :=
  [(1, 1700000000, text "cc2780160807c1290fdccd39fcc339c43cfcbef9a0bb65e63982aaaf2cb0191c"),
   (2, 1700000004, text "7bd9f644ac040462ab932727cbf69f32699d1d39a5092623524c320aa4e787de"),
   (3, 1700000009, text "16d616a763bb1d86a9f6321bf8b4e3ecc3b2414cb11f0c453d279ac6c19a0f5f"),
   (4, 1700000014, text "ec2dca9d7107a8b2d08b9cbba71f297d1f3794998a5e06bab1598de15675ffd3"),
   (5, 1700000019, text "657fc66f62d67a94477cb12e32c1963d8cac2ef61a005eb2b1283a0539449f26"),
   (6, 1700000024, text "821efa3daa03de9a9eae20b7b85623d63e8cb594951fa55f4aac5a94fb401fb8"),
   (7, 1700000029, text "20d45c4ff8d76cc0abbbd268310b63152c5fae34980069491121472332dada72"),
   (8, 1700000034, text "9d2ab58ac21e11d53173bfbe9489d6205d9d49939d86900d9bb3cbca1ac282ae"),
   (9, 1700000039, text "a96097d6a333ea6f1335208c0559297d12d5d0c4e6cc9049088ed23653b2652b"),
   (10, 1700000044, text "f729d2cdcbffd813e89b4e60efcbbfa8e15e9f515f13f36d39ae2a6d0176feff"),
   (11, 1700000049, text "712ac91cf1343ebe480d21fc4bd592bdb1ad56d577b7d88110be2fb48da4fbe9"),
   (12, 1700000053, text "721237b1bd41dbba3b3d7b1923a142850c43fed4bb63295f0af6bb7fc3613a36"),
   (13, 1700000058, text "53bd7f49e6697b9c945ddc13c50d6618a1259c9ecf459f1a967997b5a85e55c5"),
   (13, 1700000060, text "2ed2db2f4d9709eed94d031ff3de4d020871536416b0582a448f3052d3057f73")]

/-- The values of the real functions on these deliveries, as in `platform`. -/
def busyPlatform : WebhookPlatform :=
  { platform with
    signDeliveryBody := fun key timestampSec body =>
      match signatures.find? fun s =>
          key = secret ∧ timestampSec = s.2.1 ∧ body = (eventOf s.1).payload with
      | some s => s.2.2
      | none => [] }

/-- The next step of a tick, so many milliseconds after the start. -/
def turnAt (i ms : Nat) : Act WorkerRequest WorkerMove :=
  .turn i (.run ⟨start + ms, start + ms, start + ms, fun _ => 0, .ok 200⟩)

/-- The endpoint takes 4.9 seconds for each answer. When the first worker has posted the last row
of its batch, the second one finds the row due. -/
def outlived : List (Act WorkerRequest WorkerMove) :=
  [.arrive .tick, .arrive .tick, turnAt 0 0, turnAt 0 0] ++
    (List.range 12).flatMap (fun n =>
      [turnAt 0 (4900 * n), turnAt 0 (4900 * (n + 1)), turnAt 0 (4900 * (n + 1))]) ++
    [turnAt 0 58800, turnAt 1 60000, turnAt 1 60000, turnAt 1 60000]

theorem outlived_run : ∃ (log : WorkerLog) (q : WorkerPool),
    WorkerRun busyPlatform busyStore log q ∧ prompt (fun _ => none) 0 log = true ∧
    ∀ i ∈ [0, 1], (∃ row ∈ q.rowsOf i, row.deliveryId = newId .webhookDelivery 13) ∧
      ∃ e ∈ log, posts busyPlatform e = some (i, newId .webhookDelivery 13, 1) :=
  exists_runFrom busyPlatform busyStore outlived (by decide +kernel)

end WorkerScript

/-- With prompt answers and no failure, two workers process one delivery at the same time, and
both have posted its first attempt. -/
theorem lease_outlived :
    ∃ (log : WorkerLog) (q : WorkerPool), WorkerScript.busyStore.WellFormed ∧
      WorkerRun WorkerScript.busyPlatform WorkerScript.busyStore log q ∧
      prompt (fun _ => none) 0 log = true ∧
      ∃ id, (∃ row ∈ q.rowsOf 0, row.deliveryId = id) ∧ (∃ row ∈ q.rowsOf 1, row.deliveryId = id) ∧
        (∃ e ∈ log, posts WorkerScript.busyPlatform e = some (0, id, 1)) ∧
        ∃ e ∈ log, posts WorkerScript.busyPlatform e = some (1, id, 1) := by
  obtain ⟨log, q, run, prompt, both⟩ := WorkerScript.outlived_run
  obtain ⟨first, firstPost⟩ := both 0 (by decide)
  obtain ⟨second, secondPost⟩ := both 1 (by decide)
  exact ⟨log, q, ⟨by decide +kernel, by decide +kernel⟩, run, prompt, _, first, second, firstPost,
    secondPost⟩

end Syrotp
