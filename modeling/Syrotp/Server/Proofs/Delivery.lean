import Syrotp.Server.Proofs.TickStep

/-!
# Final outcomes

An outcome is written back by the id of its row alone. As long as no other worker has written one
for the row since it was claimed, the row is still pending, and what is written is its next
attempt; then no outcome is ever replaced.
-/

namespace Syrotp

variable {W : WebhookPlatform}

/-! ## Rows -/

/-- How a delivery goes on from an earlier version of it. -/
structure WebhookDelivery.Evolves (d d' : WebhookDelivery) : Prop where
  final : d.status ≠ .pending → d'.status = d.status
  attempts : d.attemptCount ≤ d'.attemptCount
  attempted : d'.attemptCount = d.attemptCount → d'.status = d.status

namespace WebhookDelivery

variable {d d' d'' : WebhookDelivery}

theorem Evolves.same (status : d'.status = d.status) (attempts : d'.attemptCount = d.attemptCount) :
    d.Evolves d' :=
  ⟨fun _ => status, Nat.le_of_eq attempts.symm, fun _ => status⟩

theorem Evolves.trans (h : d.Evolves d') (h' : d'.Evolves d'') : d.Evolves d'' where
  final terminal := (h'.final (h.final terminal ▸ terminal)).trans (h.final terminal)
  attempts := Nat.le_trans h.attempts h'.attempts
  attempted same := by
    have first : d'.attemptCount = d.attemptCount :=
      Nat.le_antisymm (same ▸ h'.attempts) h.attempts
    exact (h'.attempted (same.trans first.symm)).trans (h.attempted first)

end WebhookDelivery

@[simp] theorem applyOutcome_id (now later : Time) (attempt : Nat) (outcome : DeliveryOutcome)
    (d : WebhookDelivery) : (applyOutcome now later attempt outcome d).id = d.id := by
  unfold applyOutcome
  split
  case h_4 => split <;> (try split) <;> rfl
  all_goals rfl

@[simp] theorem applyOutcome_attemptCount (now later : Time) (attempt : Nat)
    (outcome : DeliveryOutcome) (d : WebhookDelivery) :
    (applyOutcome now later attempt outcome d).attemptCount = attempt := by
  unfold applyOutcome
  split
  case h_4 => split <;> (try split) <;> rfl
  all_goals rfl

/-- A tick neither inserts nor deletes a delivery. -/
theorem TickStep.ids {locked : Id → Bool} {w : WorkerWorld} {db db' : Db}
    {phase phase' : WorkerPhase} (h : TickStep W locked w db phase phase' db') :
    db'.webhookDeliveries.map (·.id) = db.webhookDeliveries.map (·.id) := by
  cases h with
  | leased => exact map_updateWhere fun _ => rfl
  | applied => exact map_updateWhere fun _ => applyOutcome_id ..
  | _ => rfl

/-- The next attempt of a pending delivery may end in anything. -/
theorem applyOutcome_evolves {now later : Time} {attempt : Nat} {outcome : DeliveryOutcome}
    {d : WebhookDelivery} (pending : d.status = .pending) (next : d.attemptCount < attempt) :
    d.Evolves (applyOutcome now later attempt outcome d) where
  final terminal := absurd pending terminal
  attempts := by simpa using Nat.le_of_lt next
  attempted same := by
    rw [applyOutcome_attemptCount] at same
    omega

/-! ## Stores -/

/-- The primary key is unique, and its values have been drawn. -/
structure WorkerStore.WellFormed (s : WorkerStore) : Prop where
  keys : (s.db.webhookDeliveries.map (·.id)).Nodup
  drawn : ∀ d ∈ s.db.webhookDeliveries, d.id ∈ s.drawn

/-- What a later store has of the deliveries of an earlier one. -/
structure WorkerStore.Continues (s t : WorkerStore) : Prop where
  drawn : ∀ id ∈ s.drawn, id ∈ t.drawn
  rows : ∀ d' ∈ t.db.webhookDeliveries, d'.id ∈ s.drawn →
    ∃ d ∈ s.db.webhookDeliveries, d.id = d'.id ∧ d.Evolves d'

namespace WorkerStore

variable {s t u : WorkerStore}

theorem Continues.refl (s : WorkerStore) : s.Continues s :=
  ⟨fun _ => id, fun d hd _ => ⟨d, hd, rfl, .same rfl rfl⟩⟩

theorem Continues.trans (h : s.Continues t) (h' : t.Continues u) : s.Continues u where
  drawn id known := h'.drawn id (h.drawn id known)
  rows d'' hd'' known := by
    obtain ⟨d', hd', same', evolves'⟩ := h'.rows d'' hd'' (h.drawn _ known)
    obtain ⟨d, hd, same, evolves⟩ := h.rows d' hd' (same' ▸ known)
    exact ⟨d, hd, same.trans same', evolves.trans evolves'⟩

/-- An update that leaves the primary key alone, and of which each row evolves. -/
theorem WellFormed.update (wf : s.WellFormed) {p : WebhookDelivery → Bool}
    {f : WebhookDelivery → WebhookDelivery} (key : ∀ d, (f d).id = d.id)
    (evolves : ∀ d ∈ s.db.webhookDeliveries, p d = true → d.Evolves (f d)) :
    let t : WorkerStore :=
      ⟨{ s.db with webhookDeliveries := updateWhere p f s.db.webhookDeliveries }, s.drawn⟩
    t.WellFormed ∧ s.Continues t := by
  have origin : ∀ d' ∈ updateWhere p f s.db.webhookDeliveries,
      ∃ d ∈ s.db.webhookDeliveries, d.id = d'.id ∧ d.Evolves d' := by
    intro d' hd'
    rcases mem_updateWhere_cases hd' with ⟨d, hd, hp, rfl⟩ | ⟨hd, _⟩
    · exact ⟨d, hd, (key d).symm, evolves d hd hp⟩
    · exact ⟨d', hd, rfl, .same rfl rfl⟩
  refine ⟨⟨nodup_updateWhere key wf.keys, fun d' hd' => ?_⟩, fun _ => id,
    fun d' hd' _ => origin d' hd'⟩
  obtain ⟨d, hd, same, _⟩ := origin d' hd'
  exact same ▸ wf.drawn d hd

/-- The deliveries after a transaction of the server: some of the old ones and the new ones. -/
theorem commit_deliveries (db : Db) (w : Write) :
    ∃ kept added, (db.commit w).webhookDeliveries = kept ++ added ∧
      kept.Sublist db.webhookDeliveries ∧ added.map (·.id) = w.newDeliveries := by
  cases w
  case resolveVerification row event deliveries inbound =>
    exact ⟨_, deliveries, rfl, .refl _, rfl⟩
  case deleteEndpoint appId id =>
    exact ⟨_, [], (List.append_nil _).symm, List.filter_sublist, rfl⟩
  all_goals exact ⟨_, [], (List.append_nil _).symm, .refl _, rfl⟩

theorem WellFormed.commit (wf : s.WellFormed) {w : Write} {locked : Id → Bool}
    (h : w.commits s locked = true) :
    let t : WorkerStore := ⟨s.db.commit w, w.newDeliveries ++ s.drawn⟩
    t.WellFormed ∧ s.Continues t := by
  simp only [Write.commits, Bool.and_eq_true, decide_eq_true_eq, List.all_eq_true] at h
  obtain ⟨⟨unique, fresh⟩, _⟩ := h
  obtain ⟨kept, added, deliveries, old, new⟩ := commit_deliveries s.db w
  have drawn : ∀ d ∈ kept, d.id ∈ s.drawn := fun d hd => wf.drawn d (old.subset hd)
  have fresh' : ∀ d ∈ added, d.id ∉ s.drawn := fun d hd =>
    fresh d.id (new ▸ List.mem_map_of_mem hd)
  refine ⟨⟨?_, fun d hd => ?_⟩, fun _ => List.mem_append_right _, fun d hd known => ?_⟩
  · rw [deliveries, List.map_append, List.nodup_append]
    refine ⟨wf.keys.sublist (old.map _), new ▸ unique, ?_⟩
    intro k hk k' hk' same
    obtain ⟨d, hd, rfl⟩ := List.mem_map.mp hk
    obtain ⟨d', hd', rfl⟩ := List.mem_map.mp hk'
    exact fresh' d' hd' (same ▸ drawn d hd)
  · rw [deliveries] at hd
    rcases List.mem_append.mp hd with hd | hd
    · exact List.mem_append_right _ (drawn d hd)
    · exact List.mem_append_left _ (new ▸ List.mem_map_of_mem hd)
  · rw [deliveries] at hd
    rcases List.mem_append.mp hd with hd | hd
    · exact ⟨d, old.subset hd, rfl, .same rfl rfl⟩
    · exact absurd known (fresh' d hd)

/-- What stays true of a delivery that a worker has claimed: no attempt is taken back, and while
there was no further one it is pending. -/
structure Claimed (s : WorkerStore) (row : DueRow) : Prop where
  drawn : row.deliveryId ∈ s.drawn
  attempts : ∀ d ∈ s.db.webhookDeliveries, d.id = row.deliveryId →
    row.attemptCount ≤ d.attemptCount
  pending : ∀ d ∈ s.db.webhookDeliveries, d.id = row.deliveryId →
    d.attemptCount = row.attemptCount → d.status = .pending

theorem Claimed.later {row : DueRow} (h : s.Claimed row) (later : s.Continues t) :
    t.Claimed row where
  drawn := later.drawn _ h.drawn
  attempts d' hd' same := by
    obtain ⟨d, hd, key, evolves⟩ := later.rows d' hd' (same ▸ h.drawn)
    exact Nat.le_trans (h.attempts d hd (key.trans same)) evolves.attempts
  pending d' hd' same attempt := by
    obtain ⟨d, hd, key, evolves⟩ := later.rows d' hd' (same ▸ h.drawn)
    have least := h.attempts d hd (key.trans same)
    have attempt' : d.attemptCount = row.attemptCount := by
      have := evolves.attempts
      omega
    rw [evolves.attempted (attempt.trans attempt'.symm)]
    exact h.pending d hd (key.trans same) attempt'

theorem WellFormed.claim (wf : s.WellFormed) {locked : Id → Bool} {w : WorkerWorld}
    {row : DueRow} (h : row ∈ selectDue s.db locked w) : s.Claimed row := by
  obtain ⟨d, hd, key, pending, _, _, attempts⟩ := selectDue_mem h
  have only : ∀ d' ∈ s.db.webhookDeliveries, d'.id = row.deliveryId → d' = d :=
    fun d' hd' same => eq_of_key wf.keys hd' hd (same.trans key.symm)
  refine ⟨key ▸ wf.drawn d hd, fun d' hd' same => ?_, fun d' hd' same _ => ?_⟩
  · rw [only d' hd' same, attempts]
  · rw [only d' hd' same, pending]

end WorkerStore

/-! ## Turns -/

/-- The row a call writes an outcome to in its next step. -/
def WorkerCall.writes : WorkerCall → Option DueRow
  | .tick (.applyOutcome row _ _) => some row
  | _ => none

/-- The row has been written no outcome since it was claimed. -/
def WorkerStore.Untried (s : WorkerStore) (row : DueRow) : Prop :=
  ∀ d ∈ s.db.webhookDeliveries, d.id = row.deliveryId → d.attemptCount = row.attemptCount

/-- A step whose write is to a row that it has claimed and no one has tried since. -/
theorem WorkerCall.step_continues {store store' : WorkerStore} {c c' : WorkerCall}
    {locked : Id → Bool} {world : WorkerWorld} (wf : store.WellFormed)
    (claimed : ∀ row ∈ c.rows, store.Claimed row)
    (untried : ∀ row, c.writes = some row → store.Untried row)
    (h : c.step W store locked world = some (store', c')) :
    store'.WellFormed ∧ store.Continues store' ∧ ∀ row ∈ c'.rows, store'.Claimed row := by
  cases WorkerCall.step_cases h with
  | commit commits =>
    obtain ⟨wf', continues⟩ := wf.commit commits
    exact ⟨wf', continues, fun _ hr => absurd hr List.not_mem_nil⟩
  | @tick phase _ _ ht =>
    have stay : ∀ {t : WorkerStore}, store.Continues t → ∀ row ∈ phase.rows, t.Claimed row :=
      fun later row hr => (claimed row hr).later later
    cases ht with
    | idle => exact ⟨wf, .refl _, fun _ hr => absurd hr List.not_mem_nil⟩
    | selected => exact ⟨wf, .refl _, fun row hr => wf.claim hr⟩
    | refused => exact ⟨wf, .refl _, stay (.refl _)⟩
    | posted => exact ⟨wf, .refl _, stay (.refl _)⟩
    | answered => exact ⟨wf, .refl _, stay (.refl _)⟩
    | @leased rows =>
      obtain ⟨wf', continues⟩ := wf.update (p := fun d => d.id ∈ rows.map (·.deliveryId))
        (f := fun d => { d with
          nextAttemptAt := world.now + inFlightLeaseSeconds * 1000, updatedAt := world.later })
        (fun _ => rfl) fun _ _ _ => .same rfl rfl
      exact ⟨wf', continues, stay continues⟩
    | @applied row outcome rest _ =>
      have mine := claimed row List.mem_cons_self
      obtain ⟨wf', continues⟩ := wf.update (p := fun d => d.id = row.deliveryId)
        (f := applyOutcome world.now world.later (row.attemptCount + 1) outcome)
        (fun _ => applyOutcome_id ..) fun d hd same => by
          have key : d.id = row.deliveryId := of_decide_eq_true same
          have attempt := untried row rfl d hd key
          exact applyOutcome_evolves (mine.pending d hd key attempt) (by omega)
      exact ⟨wf', continues, fun row hr => stay continues row (List.mem_cons_of_mem _ hr)⟩

/-! ## Runs -/

/-- If the step writes an outcome, no other was written to the row since it was claimed. -/
def WorkerPool.WritesUntried (p : WorkerPool) (a : Act WorkerRequest WorkerMove) : Prop :=
  ∀ i m c row, a = .turn i m → m.takesEffect = true → p.calls[i]? = some c →
    c.writes = some row → p.store.Untried row

/-- The store is well formed and each tick has claimed its rows. -/
structure WorkerPool.Sound (p : WorkerPool) : Prop where
  wellFormed : p.store.WellFormed
  claimed : ∀ (i : Nat) (c : WorkerCall), p.calls[i]? = some c →
    ∀ row ∈ c.rows, p.store.Claimed row

/-- Such a step goes on from the store before it. -/
theorem WorkerPool.Sound.step {p q : WorkerPool} {a : Act WorkerRequest WorkerMove}
    (h : p.Sound) (writes : p.WritesUntried a)
    (hs : p.step (webhookWorkers W) a = some q) : q.Sound ∧ p.store.Continues q.store := by
  cases a with
  | arrive r =>
    obtain ⟨n, hn, rfl⟩ := Pool.step_arrive hs
    refine ⟨⟨h.wellFormed, fun i c hc row hr => ?_⟩, .refl _⟩
    rcases List.mem_append.mp (List.mem_of_getElem? hc) with old | new
    · obtain ⟨j, hj⟩ := List.mem_iff_getElem?.mp old
      exact h.claimed j c hj row hr
    · obtain rfl := List.mem_singleton.mp new
      cases r <;> obtain rfl := Option.some.inj hn <;> exact absurd hr List.not_mem_nil
  | turn i m =>
    obtain ⟨c, t, hc, ht, rfl⟩ := Pool.step_turn hs
    suffices turned : t.store.WellFormed ∧ p.store.Continues t.store ∧ t.spawned = [] ∧
        ∀ row ∈ t.call.rows, t.store.Claimed row by
      obtain ⟨wf, continues, spawned, rows⟩ := turned
      refine ⟨⟨wf, fun j x hx row hr => ?_⟩, continues⟩
      rcases Pool.turned_call hc hx with ⟨_, hj⟩ | ⟨_, rfl⟩ | ⟨_, new⟩
      · exact (h.claimed j x hj row hr).later continues
      · exact rows row hr
      · rw [spawned] at new
        exact nomatch new
    have stepped : ∀ {world locked r}, m.takesEffect = true →
        c.step W p.store locked world = some r →
        r.1.WellFormed ∧ p.store.Continues r.1 ∧ ∀ row ∈ r.2.rows, r.1.Claimed row :=
      fun effect hr => WorkerCall.step_continues h.wellFormed (h.claimed i c hc)
        (fun row hw => writes i m c row rfl effect hc hw) hr
    have idle : ∀ {f : WorkerCall} {s : WorkerStore}, c.failed = some f → ∀ row ∈ f.rows,
        s.Claimed row := by
      intro f s hf row hr
      rw [WorkerCall.failed_rows hf] at hr
      exact nomatch hr
    cases WorkerCall.turn_cases ht with
    | ran hr =>
      obtain ⟨wf, continues, rows⟩ := stepped rfl hr
      exact ⟨wf, continues, rfl, rows⟩
    | error hf => exact ⟨h.wellFormed, .refl _, rfl, idle hf⟩
    | lost hr hf =>
      obtain ⟨wf, continues, _⟩ := stepped rfl hr
      exact ⟨wf, continues, rfl, idle hf⟩

/-- In a run whose outcomes are each written to a row that no one else has written one to since it
was claimed, a delivery that is not pending keeps its status, and no attempt count decreases. -/
theorem outcomes_final {store : WorkerStore} (wf : store.WellFormed)
    {log : List (WorkerPool × Act WorkerRequest WorkerMove)} {q : WorkerPool}
    (run : WorkerRun W store log q) (untried : ∀ e ∈ log, e.1.WritesUntried e.2)
    {e : WorkerPool × Act WorkerRequest WorkerMove} (earlier : e ∈ log)
    {d d' : WebhookDelivery} (hd : d ∈ e.1.store.db.webhookDeliveries)
    (hd' : d' ∈ q.store.db.webhookDeliveries) (same : d'.id = d.id) :
    (d.status ≠ .pending → d'.status = d.status) ∧ d.attemptCount ≤ d'.attemptCount := by
  obtain ⟨log₁, v, log₂, rfl, before, hs, after⟩ := run.split earlier
  have sound : e.1.Sound := before.invariant_of _ WorkerPool.WritesUntried
    ⟨wf, fun i c hc => by simp at hc⟩ (fun _ _ _ h writes hs => (h.step writes hs).1)
    fun e he => untried e (List.mem_append_left _ he)
  obtain ⟨_, continues⟩ := ((Run.single hs).trans after).invariant_of
    (fun u : WorkerPool => u.Sound ∧ e.1.store.Continues u.store) WorkerPool.WritesUntried
    ⟨sound, .refl _⟩
    (fun t a u ⟨h, continues⟩ writes hs =>
      ⟨(h.step writes hs).1, continues.trans (h.step writes hs).2⟩)
    fun e he => untried e (List.mem_append_right _ he)
  obtain ⟨d₀, hd₀, key, evolves⟩ :=
    continues.rows d' hd' (same ▸ sound.wellFormed.drawn d hd)
  obtain rfl : d₀ = d := eq_of_key sound.wellFormed.keys hd₀ hd (key.trans same)
  exact ⟨evolves.final, evolves.attempts⟩

namespace WorkerScript

def app : Id := newId .app 1

/-- 22:13:20 on the fourteenth of November 2023. -/
def start : Time := 1700000000000

def endpoint : WebhookEndpoint where
  id := newId .webhookEndpoint 1
  appId := app
  url := text "https://example.com/hook"
  secretCiphertext := text "v1.AgICAgICAgICAgIC.pjUnUQtHLRrHuL7XFXFMuw." ++
    text "cL66LCkI8czh_4j9apD6i8PXsouO171A77TUzk7MTEYWHX1TCAmT3nUd" ++
    text "ZtypEGRCyxe9s8I87Rf5cIeHVQN1sxWG8obDrA"
  enabled := true
  eventTypes := [.verified]
  createdAt := start
  updatedAt := start

def secret : Text := text "whsec_0123456789abcdef0123456789abcdef0123456789abcdef0123456789abcdef"

def event : WebhookEvent :=
  eventRow .verified app
    ⟨newId .verification 3, .verified, text "+96399****567", text "login", none, some start, none,
      none⟩ (newId .webhookEvent 2) start

def delivery : WebhookDelivery :=
  deliveryRow .verified event.id start (newId .webhookDelivery 4, endpoint.id)

def store : WorkerStore :=
  ⟨{ Db.empty with
      webhookEndpoints := [endpoint], webhookEvents := [event], webhookDeliveries := [delivery] },
    [delivery.id]⟩

/-- The values of the real functions on this delivery, under a master key of 32 bytes `01`. -/
def platform : WebhookPlatform where
  isUrlAllowedForDelivery url := url = endpoint.url
  unwrap wrapped endpointId :=
    if wrapped = endpoint.secretCiphertext ∧ endpointId = endpoint.id then some secret else none
  signDeliveryBody key timestampSec body :=
    if key = secret ∧ body = event.payload then
      if timestampSec = 1700000060 then
        text "f68fea967286b4adcfcf6bca76b0a2e8ed5273eefaf4a2d73e6f708fc38c7100"
      else if timestampSec = 1700000091 then
        text "e6b1d4a8efda51ea653cd5ef5c3dc83851fed06c81edacb491ee9acde5816180"
      else []
    else []

/-- The next step of a tick, so many seconds after the start. -/
def turn (i seconds : Nat) (response : Except Thrown Nat) : Act WorkerRequest WorkerMove :=
  .turn i (.run ⟨start + seconds * 1000, start + seconds * 1000, start + seconds * 1000, fun _ => 0,
    response⟩)

/-- A tick claims the delivery, sends the request and writes the outcome. -/
def delivers (i seconds : Nat) (response : Except Thrown Nat) :
    List (Act WorkerRequest WorkerMove) :=
  List.replicate 5 (turn i seconds response)

def ticks : List (Act WorkerRequest WorkerMove) := List.replicate 3 (.arrive .tick)

/-- The first worker claims the delivery and stops; the second delivers it when the lease has run
out, and the third finds nothing due. -/
def handedOver : List (Act WorkerRequest WorkerMove) :=
  ticks ++ [turn 0 0 (.ok 200), turn 0 0 (.ok 200)] ++ delivers 1 60 (.ok 200) ++
    [turn 2 91 (.ok 200)]

/-- The first worker claims the delivery and is slow. The second tries it when the lease has run
out, and the third delivers it; then the first one's request times out. -/
def overtaken : List (Act WorkerRequest WorkerMove) :=
  let timeout : Except Thrown Nat := .error (.domException (text "TimeoutError")
    (text "The operation was aborted due to timeout"))
  ticks ++ [turn 0 0 timeout, turn 0 0 timeout] ++ delivers 1 60 (.ok 503) ++
    [turn 0 91 timeout] ++ delivers 2 91 (.ok 200) ++ [turn 0 96 timeout, turn 0 96 timeout]

def result (acts : List (Act WorkerRequest WorkerMove)) :
    Option (List (WorkerPool × Act WorkerRequest WorkerMove) × WorkerPool) :=
  exec (Pool.step (webhookWorkers platform)) ⟨store, []⟩ acts

def resultFrom (W : WebhookPlatform) (store : WorkerStore)
    (acts : List (Act WorkerRequest WorkerMove)) : Option (WorkerLog × WorkerPool) :=
  exec (Pool.step (webhookWorkers W)) ⟨store, []⟩ acts

theorem runFrom (W : WebhookPlatform) (store : WorkerStore)
    (acts : List (Act WorkerRequest WorkerMove)) (h : (resultFrom W store acts).isSome = true) :
    WorkerRun W store ((resultFrom W store acts).get h).1 ((resultFrom W store acts).get h).2 :=
  run_of_exec (Option.some_get h).symm

/-- A run of the actions, with what is decided of its log and its end. -/
theorem exists_runFrom (W : WebhookPlatform) (store : WorkerStore)
    (acts : List (Act WorkerRequest WorkerMove)) {P : WorkerLog → WorkerPool → Prop}
    [∀ log q, Decidable (P log q)]
    (h : (resultFrom W store acts).any (fun r => decide (P r.1 r.2)) = true) :
    ∃ log q, WorkerRun W store log q ∧ P log q :=
  run_of_exec_any h

theorem run (acts : List (Act WorkerRequest WorkerMove)) (h : (result acts).isSome = true) :
    WorkerRun platform store ((result acts).get h).1 ((result acts).get h).2 :=
  runFrom platform store acts h

theorem handedOver_runs : (result handedOver).isSome = true := by decide +kernel

theorem overtaken_runs : (result overtaken).isSome = true := by decide +kernel

/-- At this step no outcome is written, or one to a row that was not tried since it was claimed. -/
def inTurn (e : WorkerPool × Act WorkerRequest WorkerMove) : Bool :=
  match e.2 with
  | .turn i _ =>
    match e.1.calls[i]?.bind WorkerCall.writes with
    | some row => e.1.store.db.webhookDeliveries.all fun d =>
        d.id ≠ row.deliveryId || d.attemptCount = row.attemptCount
    | none => true
  | .arrive _ => true

theorem writes_untried {e : WorkerPool × Act WorkerRequest WorkerMove} (h : inTurn e = true) :
    e.1.WritesUntried e.2 := by
  intro i m c row taken _ hc writes d hd same
  simp only [inTurn, taken, hc, Option.bind_some, writes, List.all_eq_true] at h
  simpa [same] using h d hd

end WorkerScript

/-- Handed over, the delivery is delivered, and stays so. -/
theorem outcomes_final_script :
    ∃ log q, WorkerRun WorkerScript.platform WorkerScript.store log q ∧
      ∃ e ∈ log, ∃ d ∈ e.1.store.db.webhookDeliveries, d.status = .delivered ∧
        ∀ d' ∈ q.store.db.webhookDeliveries, d'.id = d.id → d'.status = .delivered := by
  have run := WorkerScript.run _ WorkerScript.handedOver_runs
  have inTurn : ∀ e ∈ ((WorkerScript.result WorkerScript.handedOver).get
      WorkerScript.handedOver_runs).1, WorkerScript.inTurn e = true := by decide +kernel
  have reached : ∃ e ∈ ((WorkerScript.result WorkerScript.handedOver).get
      WorkerScript.handedOver_runs).1,
      ∃ d ∈ e.1.store.db.webhookDeliveries, d.status = .delivered := by decide +kernel
  obtain ⟨e, logged, d, hd, delivered⟩ := reached
  refine ⟨_, _, run, e, logged, d, hd, delivered, fun d' hd' same => ?_⟩
  have final := outcomes_final ⟨by decide +kernel, by decide +kernel⟩ run
    (fun e he => WorkerScript.writes_untried (inTurn e he)) logged hd hd' same
  exact (final.1 (by simp [delivered])).trans delivered

/-- Overtaken, a worker makes a delivered delivery pending again and takes an attempt back. -/
theorem delivered_then_pending :
    ∃ log q, WorkerRun WorkerScript.platform WorkerScript.store log q ∧
      ∃ e ∈ log, ∃ d ∈ e.1.store.db.webhookDeliveries,
        ∃ d' ∈ q.store.db.webhookDeliveries, d'.id = d.id ∧
          d.status = .delivered ∧ d'.status = .pending ∧ d'.attemptCount < d.attemptCount :=
  ⟨_, _, WorkerScript.run _ WorkerScript.overtaken_runs, by decide +kernel⟩

end Syrotp
