import Syrotp.Android.Proofs.LostUpdate
import Syrotp.Gsm.Proofs.QueueExits

/-!
# Why messages leave the queue of the Android gateway

An item's attempts are at most the failures among the answers to it, of whatever kind, and a client
error at the last attempt removes it. So while no write leaves out a message that its operation had
not read, a message leaves for a reason of its own if the failures that fill the count of one that a
client error removes are permanent errors.
-/

namespace Syrotp.Android

variable {P : Primitives} {log : List (Device × Action)} {d t : Device} {a : Action}
  {item : Item} {arr : List Item} {status : Option Nat} {ops : List Op} {id : Text}

/-- How a post ends; without an answer, for a while. -/
def outcomeOf : Option Nat → Outcome
  | none => .transient
  | some status => .ofStatus status

/-- What a step answers, and to which item. -/
def answer (e : Device × Action) : Option (Text × Outcome) :=
  match e.2, e.1.items with
  | .post status, item :: _ => some (item.id, outcomeOf status)
  | _, _ => none

/-- A message with this id leaves the file at this step. -/
def Leaves (P : Primitives) (e : Device × Action) (id : Text) : Prop :=
  ∃ t, e.1.step P e.2 = some t ∧ ∃ m ∈ messages e.1.file, m ∉ messages t.file ∧ m.id = id

/-- A write at this step is of an operation that read all messages in the file. -/
structure WritesAll (e : Device × Action) : Prop where
  receiver : e.2 = .receiverWrite → ∀ item arr, e.1.receiver = some (item, arr) →
    ∀ m ∈ messages e.1.file, m ∈ messages arr
  worker : e.2 = .workerWrite → ∀ op arr, e.1.worker = some (op, arr) →
    ∀ m ∈ messages e.1.file, m ∈ messages arr

/-- Every message that leaves the queue in this log has a reason. -/
def ExitsHaveReasons (P : Primitives) (log : List (Device × Action)) : Prop :=
  ExitsForReasons MAX_ATTEMPTS answer (Leaves P) log

/-- The counts that client errors end in this log are of permanent errors. -/
def CountsArePermanent (log : List (Device × Action)) : Prop :=
  CountsOfPermanent MAX_ATTEMPTS answer log

instance (log : List (Device × Action)) : Decidable (CountsArePermanent log) :=
  inferInstanceAs (Decidable (CountsOfPermanent _ _ _))

/-! ## One answer -/

theorem answer_post {rest : List Item} (first : d.items = item :: rest) :
    answer (d, .post status) = some (item.id, outcomeOf status) := by
  simp only [answer, first]

/-- What the worker has to do about an item after an answer: at most one bump, after a failure, and
a removal after a delivery or a client error at the last attempt. -/
structure Decided (item : Item) (status : Option Nat) (ops : List Op) : Prop where
  bumps : ∀ id, ops.count (.bumpAttempts id) ≤
    (failures (if item.id = id then [outcomeOf status] else [])).length
  removes : ∀ id, .remove id ∈ ops → id = item.id ∧ (outcomeOf status = .delivered ∨
    (outcomeOf status).isClientError = true ∧ MAX_ATTEMPTS ≤ item.attempts + 1)

/-- A bump after a failure, and then perhaps a removal that has a reason. -/
theorem decided_bump (fails : (outcomeOf status).isFailure = true) {more : List Op}
    (removal : ∀ op ∈ more, op = .remove item.id ∧ (outcomeOf status).isClientError = true ∧
      MAX_ATTEMPTS ≤ item.attempts + 1) : Decided item status (.bumpAttempts item.id :: more) where
  bumps id := by
    have none : more.count (.bumpAttempts id) = 0 :=
      List.count_eq_zero.mpr fun mem => by cases (removal _ mem).1
    rw [List.count_cons, none, Nat.zero_add]
    by_cases same : item.id = id
    · rw [if_pos same, failures, List.filter_cons_of_pos fails]
      split <;> simp
    · rw [if_neg (by simpa using same)]
      exact Nat.zero_le _
  removes id mem := by
    rcases List.mem_cons.mp mem with bump | mem
    · cases bump
    · obtain ⟨same, reason⟩ := removal _ mem
      exact ⟨Op.remove.inj same, .inr reason⟩

theorem decided_of_opsFor (h : opsFor item status = some ops) : Decided item status ops := by
  cases status with
  | none =>
    obtain rfl := Option.some.inj h
    exact decided_bump rfl (List.forall_mem_nil _)
  | some status =>
    have range : status ≤ 299 ↔ status < 300 := by omega
    have range' : status ≤ 499 ↔ status < 500 := by omega
    simp only [opsFor, range, range'] at h
    split at h
    · next taken =>
      obtain rfl := Option.some.inj h
      refine ⟨fun id => ?_, fun id mem => ?_⟩
      · rw [List.count_eq_zero.mpr fun mem => by cases List.mem_singleton.mp mem]
        exact Nat.zero_le _
      · exact ⟨Op.remove.inj (List.mem_singleton.mp mem), .inl (Outcome.ofStatus_delivered taken)⟩
    · next refused =>
      split at h
      · cases h
      · next authorized =>
        split at h
        · next client =>
          have error : (outcomeOf (some status)).isClientError = true :=
            Outcome.ofStatus_client refused authorized client
          obtain rfl := Option.some.inj h
          refine decided_bump (Outcome.isFailure_of_isClientError error) fun op mem => ?_
          split at mem
          · next last => exact ⟨List.mem_singleton.mp mem, error, last⟩
          · cases mem
        · next server =>
          obtain rfl := Option.some.inj h
          refine decided_bump ?_ (List.forall_mem_nil _)
          rw [outcomeOf, Outcome.ofStatus_transient refused authorized server]
          rfl

/-! ## What an item's attempts count -/

/-- What the worker has decided and not written. -/
def Device.pending (d : Device) : List Op := d.todo ++ (d.worker.map (·.1)).toList

def Device.bumps (d : Device) (id : Text) : Nat := d.pending.count (.bumpAttempts id)

def failed (log : List (Device × Action)) (id : Text) : Nat :=
  (failures (answersTo answer id log)).length

/-- The attempts of these items, with the bumps still to be written, are at most the failures. -/
def Within (log : List (Device × Action)) (d : Device) (arr : List Item) : Prop :=
  ∀ x ∈ arr, x.attempts + d.bumps x.id ≤ failed log x.id

structure Device.Counted (log : List (Device × Action)) (d : Device) : Prop where
  bumps : ∀ id, d.bumps id ≤ failed log id
  file : Within log d d.file
  receiver : ∀ item arr, d.receiver = some (item, arr) → item.attempts = 0 ∧ Within log d arr
  worker : ∀ op arr, d.worker = some (op, arr) → Within log d arr
  items : ∀ x ∈ d.items, x.attempts ≤ failed log x.id
  removes : ∀ id, .remove id ∈ d.pending → HasReason MAX_ATTEMPTS (answersTo answer id log)

theorem answersTo_quiet (quiet : answer (d, a) = none) (id : Text) :
    answersTo answer id (log ++ [(d, a)]) = answersTo answer id log :=
  answersTo_of_other (fun _ told => by rw [quiet] at told; cases told) log

theorem Within.mono {log' : List (Device × Action)} (h : Within log d arr)
    (bumps : ∀ id, t.bumps id + failed log id ≤ d.bumps id + failed log' id) :
    Within log' t arr := by
  intro x hx
  have before := h x hx
  have after := bumps x.id
  omega

/-- A step without a post whose worker has no more to do than before. -/
theorem Device.Counted.quiet (h : d.Counted log) (quiet : answer (d, a) = none)
    (pending : ∀ op, t.pending.count op ≤ d.pending.count op)
    (file : Within log t t.file)
    (receiver : ∀ item arr, t.receiver = some (item, arr) → item.attempts = 0 ∧ Within log d arr)
    (worker : ∀ op arr, t.worker = some (op, arr) → Within log d arr)
    (items : ∀ x ∈ t.items, x.attempts ≤ failed log x.id) : t.Counted (log ++ [(d, a)]) := by
  have same : ∀ id, failed (log ++ [(d, a)]) id = failed log id := by
    intro id
    rw [failed, answersTo_quiet quiet, failed]
  have fewer : ∀ id, t.bumps id + failed log id ≤ d.bumps id + failed (log ++ [(d, a)]) id := by
    intro id
    rw [same]
    exact Nat.add_le_add_right (pending _) _
  have still : Within (log ++ [(d, a)]) t t.file := file.mono fun id =>
    Nat.le_of_eq (congrArg (t.bumps id + ·) (same id).symm)
  refine ⟨fun id => ?_, still, fun item arr holding => ?_, fun op arr holding => ?_,
    fun x hx => ?_, fun id mem => ?_⟩
  · rw [same]
    exact Nat.le_trans (pending _) (h.bumps id)
  · exact ⟨(receiver item arr holding).1, (receiver item arr holding).2.mono fewer⟩
  · exact (worker op arr holding).mono fewer
  · rw [same]
    exact items x hx
  · rw [answersTo_quiet quiet]
    have there := Nat.lt_of_lt_of_le (List.count_pos_iff.mpr mem) (pending _)
    exact h.removes id (List.count_pos_iff.mp there)

/-- A written operation takes its own bump off the bumps to come. -/
theorem Within.apply {op : Op} (h : ∀ x ∈ arr, x.attempts + (op :: ops).count (.bumpAttempts x.id) ≤
    failed log x.id) : ∀ x ∈ op.apply arr, x.attempts + ops.count (.bumpAttempts x.id) ≤
      failed log x.id := by
  cases op with
  | remove id =>
    intro x hx
    have before := h x (List.mem_filter.mp hx).1
    rw [List.count_cons] at before
    omega
  | bumpAttempts id =>
    intro x hx
    rcases mem_updateWhere_cases hx with ⟨y, hy, hit, rfl⟩ | ⟨hx, _⟩
    · have before := h y hy
      rw [of_decide_eq_true hit, List.count_cons_self] at before
      simp only [of_decide_eq_true hit]
      omega
    · have before := h x hx
      rw [List.count_cons] at before
      omega

theorem failed_post {rest : List Item} (first : d.items = item :: rest) (id : Text) :
    failed (log ++ [(d, .post status)]) id = failed log id +
      (failures (if item.id = id then [outcomeOf status] else [])).length := by
  have told : answer (d, .post status) = some (item.id, outcomeOf status) := answer_post first
  by_cases same : item.id = id
  · subst same
    rw [failed, answersTo_of_answer told, if_pos rfl, failures, List.filter_append,
      List.length_append, failed, failures, failures]
  · have other : answersTo answer id (log ++ [(d, .post status)]) = answersTo answer id log := by
      refine answersTo_of_other (fun a ha => ?_) log
      obtain rfl := Option.some.inj (told.symm.trans ha)
      exact same
    rw [failed, other, if_neg same]
    rfl

/-- The answer to an item, and what the worker decides about it. -/
theorem Device.Counted.decided {rest : List Item} (h : d.Counted log) (idle : d.worker = none)
    (first : d.items = item :: rest) (decided : Decided item status ops)
    (permanent : AnswersPermanent MAX_ATTEMPTS answer log (d, .post status)) :
    ({ d with todo := ops, items := rest } : Device).Counted (log ++ [(d, .post status)]) := by
  have pending : ({ d with todo := ops, items := rest } : Device).pending = ops := by
    simp [Device.pending, idle]
  have fewer : ∀ id, ({ d with todo := ops, items := rest } : Device).bumps id + failed log id ≤
      d.bumps id + failed (log ++ [(d, .post status)]) id := by
    intro id
    have most := decided.bumps id
    rw [Device.bumps, pending, failed_post first]
    omega
  have attempts : ∀ x ∈ d.items, x.attempts ≤ failed log x.id := h.items
  refine ⟨fun id => ?_, h.file.mono fewer, fun item arr holding => ?_, fun op arr holding => ?_,
    fun x hx => ?_, fun id mem => ?_⟩
  · rw [Device.bumps, pending, failed_post first]
    exact Nat.le_trans (decided.bumps id) (Nat.le_add_left _ _)
  · obtain ⟨zero, within⟩ := h.receiver item arr holding
    exact ⟨zero, within.mono fewer⟩
  · exact (h.worker op arr holding).mono fewer
  · rw [failed_post first]
    exact Nat.le_trans (attempts x (first ▸ List.mem_cons_of_mem _ hx)) (Nat.le_add_right _ _)
  · rw [pending] at mem
    obtain ⟨rfl, reason⟩ := decided.removes id mem
    rw [answersTo_of_answer (answer_post first)]
    rcases reason with delivered | ⟨client, last⟩
    · rw [delivered]
      exact .inl (List.mem_append_right _ (List.mem_singleton_self _))
    · refine (permanent _ (answer_post first)).hasReason client ?_
      exact Nat.le_trans last (Nat.succ_le_succ (attempts item (first ▸ List.mem_cons_self)))

theorem Device.Counted.step (h : d.Counted log) (hs : d.step P a = some t)
    (permanent : AnswersPermanent MAX_ATTEMPTS answer log (d, a)) : t.Counted (log ++ [(d, a)]) := by
  cases Device.step_cases hs with
  | received _ _ =>
    refine h.quiet rfl (fun _ => Nat.le_refl _) h.file (fun item arr holding => ?_)
      h.worker h.items
    obtain ⟨rfl, rfl⟩ := Prod.mk.inj (Option.some.inj holding)
    exact ⟨rfl, h.file⟩
  | @enqueued item arr holding =>
    obtain ⟨zero, within⟩ := h.receiver item arr holding
    refine h.quiet rfl (fun _ => Nat.le_refl _) (fun x hx => ?_)
      (fun _ _ holding => by cases holding) h.worker h.items
    rcases List.mem_append.mp hx with read | new
    · exact within x read
    · obtain rfl := List.mem_singleton.mp new
      rw [zero, Nat.zero_add]
      exact h.bumps _
  | listed _ _ _ =>
    refine h.quiet rfl (fun _ => Nat.le_refl _) h.file h.receiver h.worker
      fun x hx => ?_
    exact Nat.le_trans (Nat.le_add_right _ _) (h.file x hx)
  | decided idle _ first decided =>
    exact h.decided idle first (decided_of_opsFor decided) permanent
  | @stopped status item rest idle free first _ =>
    -- nothing is to do before the answer or after it
    have none : Decided item status [] := ⟨fun _ => Nat.zero_le _, fun _ mem => by cases mem⟩
    have stops := h.decided idle first none permanent
    rw [← free] at stops
    exact ⟨stops.bumps, stops.file, stops.receiver, stops.worker, List.forall_mem_nil _,
      stops.removes⟩
  | @read op rest idle first =>
    have pending : ({ d with worker := some (op, d.file), todo := rest } : Device).pending.Perm
        d.pending := by
      simp only [Device.pending, idle, first, Option.map_some, Option.map_none, Option.toList_some,
        Option.toList_none, List.append_nil]
      exact List.perm_append_singleton op rest
    refine h.quiet rfl (fun op' => Nat.le_of_eq (pending.count_eq op'))
      (h.file.mono fun id => Nat.le_of_eq ?_) h.receiver (fun op' arr holding => ?_) h.items
    · rw [Device.bumps, pending.count_eq, Device.bumps]
    · obtain ⟨rfl, rfl⟩ := Prod.mk.inj (Option.some.inj holding)
      exact h.file
  | @written op arr holding =>
    have pending : d.pending.Perm (op :: d.todo) := by
      simp only [Device.pending, holding, Option.map_some, Option.toList_some]
      exact List.perm_append_singleton op d.todo
    have done : ∀ file, ({ d with file := file, worker := none } : Device).pending = d.todo :=
      fun _ => List.append_nil _
    refine h.quiet rfl (fun op' => ?_) (fun x hx => ?_) h.receiver
      (fun _ _ holding => by cases holding) h.items
    · rw [done, pending.count_eq]
      exact List.Sublist.count_le _ (List.sublist_cons_self _ _)
    · rw [Device.bumps, done]
      refine Within.apply (fun y hy => ?_) x hx
      rw [← pending.count_eq]
      exact h.worker op arr holding y hy
  | died =>
    refine h.quiet rfl (fun _ => Nat.zero_le _) (h.file.mono fun id => ?_)
      (fun _ _ holding => by cases holding) (fun _ _ holding => by cases holding)
      (List.forall_mem_nil _)
    exact Nat.add_le_add_right (Nat.zero_le _) _

theorem DeviceRun.counted (run : DeviceRun P log d)
    (permanent : CountsArePermanent log) : d.Counted log := by
  induction run with
  | start =>
    exact ⟨fun _ => Nat.zero_le _, List.forall_mem_nil _, (fun _ _ holding => by cases holding),
      (fun _ _ holding => by cases holding), List.forall_mem_nil _, fun _ mem => by cases mem⟩
  | next run hs ih =>
    exact (ih (permanent.take rfl)).step hs (countsOfPermanent_iff.mp permanent _ _ [] rfl)

/-! ## Exits -/

/-- A message leaves only where a removal of it is written, if writes leave out nothing else. -/
theorem Device.Counted.leavesForReason (h : d.Counted log) (all : WritesAll (d, a)) :
    LeavesForReason MAX_ATTEMPTS answer (Leaves P) log (d, a) := by
  rintro id ⟨t, hs, m, there, gone, rfl⟩
  cases Device.step_cases hs with
  | enqueued holding =>
    exact absurd (mem_enqueue.mpr (.inl (all.receiver rfl _ _ holding m there))) gone
  | @written op arr holding =>
    have read := all.worker rfl op arr holding m there
    cases op with
    | bumpAttempts id => exact absurd (messages_bumpAttempts id arr ▸ read) gone
    | remove id =>
      have same : m.id = id := by
        by_contra other
        exact gone (mem_remove.mpr ⟨read, other⟩)
      have pending : .remove id ∈ d.pending := by
        refine List.mem_append_right _ ?_
        rw [show d.worker = some (.remove id, arr) from holding]
        exact List.mem_singleton_self _
      rw [same]
      have reason := h.removes id pending
      rw [answersTo_concat]
      exact reason.mono _
  | _ => exact absurd there gone

theorem exitsHaveReasons (run : DeviceRun P log d) (all : ∀ e ∈ log, WritesAll e)
    (permanent : CountsArePermanent log) : ExitsHaveReasons P log := by
  intro log₁ e log₂ split
  obtain ⟨v, before, _, _⟩ := run.split_at split
  have counted : e.1.Counted log₁ := DeviceRun.counted before (permanent.take split)
  exact counted.leavesForReason (all e (split ▸ List.mem_append_right _ List.mem_cons_self))

namespace ExitScript

theorem writesAll {e : Device × Action} (h : WritesCurrent e) : WritesAll e :=
  ⟨fun write item arr holding m => (h.receiver write item arr holding m).mpr,
    fun write op arr holding m => (h.worker write op arr holding m).mpr⟩

/-- Eight runs of the worker, in which the first message is refused for good. -/
def refusedForGood : List Action :=
  [QueueScript.receiveFirst, .receiverWrite] ++
    (List.replicate 7 [.snapshot, .post (some 400), .workerRead, .workerWrite]).flatten ++
    [.snapshot, .post (some 400), .workerRead, .workerWrite, .workerRead, .workerWrite]

def refusedResult : Option (List (Device × Action) × Device) :=
  exec (Device.step QueueScript.primitives) .init refusedForGood

theorem refused_runs : refusedResult.isSome = true := by decide +kernel

theorem refused_run : DeviceRun QueueScript.primitives (refusedResult.get refused_runs).1
    (refusedResult.get refused_runs).2 :=
  run_of_exec (Option.some_get refused_runs).symm

/-- The network fails for the first message in seven runs of the worker. -/
def sevenFailures : List Action :=
  [QueueScript.receiveFirst, .receiverWrite] ++
    (List.replicate 7 [.snapshot, .post none, .workerRead, .workerWrite]).flatten

/-- Then it is answered 429. -/
def throttled : List Action :=
  sevenFailures ++ [.snapshot, .post (some 429), .workerRead, .workerWrite, .workerRead]

def result : Option (List (Device × Action) × Device) :=
  exec (Device.step QueueScript.primitives) .init throttled

/-- The write that comes next removes the message, without one permanent error. -/
def dropsEarly (r : List (Device × Action) × Device) : Bool :=
  (r.2.step QueueScript.primitives .workerWrite).any fun t =>
    (messages r.2.file).any fun m => m ∉ messages t.file &&
      !decide (HasReason MAX_ATTEMPTS (answersTo answer m.id (r.1 ++ [(r.2, .workerWrite)])))

theorem not_exitsHaveReasons {r : List (Device × Action) × Device} (h : dropsEarly r = true) :
    ¬ExitsHaveReasons QueueScript.primitives (r.1 ++ [(r.2, .workerWrite)]) := by
  obtain ⟨t, hs, h⟩ := (Option.any_eq_true _ _).mp h
  obtain ⟨m, there, h⟩ := List.any_eq_true.mp h
  simp only [Bool.and_eq_true, decide_eq_true_eq, Bool.not_eq_eq_eq_not, Bool.not_true,
    decide_eq_false_iff_not] at h
  exact fun reasons => h.2 (reasons r.1 _ [] rfl m.id ⟨t, hs, m, there, h.1, rfl⟩)

end ExitScript

end Syrotp.Android

namespace Syrotp.Gsm.ExitScript

/-- A message is queued, and answered with this status in as many cycles of the worker as there are
times. -/
def answeredAt (status : Nat) (times : List Int) : List Action :=
  (KeysScript.twoSeconds.take 1).flatMap (fun m =>
    [.arrive m, .poll (fun _ => 0) (answered [m]), .add 0, .delete true]) ++
  times.flatMap fun now => [.drain now, .upload (.refused status false) now]

def refusedResult : Option (List (Station × Action) × Station) :=
  exec (Station.step KeysScript.config) .init
    (answeredAt 400 [0, 1000000, 2000000, 3000000, 4000000])

theorem refused_runs : refusedResult.isSome = true := by decide +kernel

theorem refused_run : StationRun KeysScript.config (refusedResult.get refused_runs).1
    (refusedResult.get refused_runs).2 :=
  run_of_exec (Option.some_get refused_runs).symm

/-- After four failures of the server, the upload that comes next is answered 429. -/
def throttled : Action := .upload (.refused 429 false) 4000000

def result : Option (List (Station × Action) × Station) :=
  exec (Station.step KeysScript.config) .init
    (answeredAt 503 [0, 1000000, 2000000, 3000000] ++ [.drain 4000000])

/-- That drops the message, without one permanent error. -/
def dropsEarly (r : List (Station × Action) × Station) : Bool :=
  (r.2.step KeysScript.config throttled).any fun t =>
    r.2.queue.ids.any fun id => id ∉ t.queue.ids &&
      !decide (HasReason maxAttempts4xx (answersTo answer id (r.1 ++ [(r.2, throttled)])))

theorem not_exitsHaveReasons {r : List (Station × Action) × Station} (h : dropsEarly r = true) :
    ¬ExitsHaveReasons KeysScript.config (r.1 ++ [(r.2, throttled)]) := by
  obtain ⟨t, hs, h⟩ := (Option.any_eq_true _ _).mp h
  obtain ⟨id, there, h⟩ := List.any_eq_true.mp h
  simp only [Bool.and_eq_true, decide_eq_true_eq, Bool.not_eq_eq_eq_not, Bool.not_true,
    decide_eq_false_iff_not] at h
  exact fun reasons => h.2 (reasons r.1 _ [] rfl id ⟨t, hs, there, h.1⟩)

end Syrotp.Gsm.ExitScript

namespace Syrotp

/-- In every run of the GSM gateway whatever leaves the queue has a reason exactly if the counts
that client errors end are of permanent errors; in every run of the Android gateway it has, if they
are and no write leaves out a message that its operation had not read. -/
theorem exits_have_reasons (cfg : Gsm.GatewayConfig) (P : Primitives) :
    (∀ log s, Gsm.StationRun cfg log s →
      (Gsm.ExitsHaveReasons cfg log ↔ Gsm.CountsArePermanent log)) ∧
    ∀ log d, Android.DeviceRun P log d → (∀ e ∈ log, Android.WritesAll e) →
      Android.CountsArePermanent log → Android.ExitsHaveReasons P log :=
  ⟨fun _ _ => Gsm.exitsHaveReasons_iff, fun _ _ => Android.exitsHaveReasons⟩

/-- Either gateway gives a message up after as many permanent errors as its maximum. -/
theorem exits_have_reasons_script :
    (∃ log s, Gsm.StationRun Gsm.KeysScript.config log s ∧ s.queue.rows = [] ∧
      (log.filterMap Gsm.answer).map (·.2) = List.replicate 5 .permanent ∧
      Gsm.ExitsHaveReasons Gsm.KeysScript.config log) ∧
    ∃ log d, Android.DeviceRun Android.QueueScript.primitives log d ∧ d.file = [] ∧
      (log.filterMap Android.answer).map (·.2) = List.replicate 8 .permanent ∧
      Android.ExitsHaveReasons Android.QueueScript.primitives log := by
  constructor
  · have run := Gsm.ExitScript.refused_run
    have permanent : Gsm.CountsArePermanent
        (Gsm.ExitScript.refusedResult.get Gsm.ExitScript.refused_runs).1 := by decide +kernel
    exact ⟨_, _, run, by decide +kernel, by decide +kernel,
      ((exits_have_reasons Gsm.KeysScript.config Android.QueueScript.primitives).1 _ _ run).mpr
        permanent⟩
  · have run := Android.ExitScript.refused_run
    have current : ∀ e ∈ (Android.ExitScript.refusedResult.get Android.ExitScript.refused_runs).1,
        Android.QueueScript.current e = true := by decide +kernel
    refine ⟨_, _, run, by decide +kernel, by decide +kernel,
      (exits_have_reasons Gsm.KeysScript.config Android.QueueScript.primitives).2 _ _ run
        (fun e he => ?_) (by decide +kernel)⟩
    exact Android.ExitScript.writesAll (Android.QueueScript.writesCurrent (current e he))

/-- Both gateways drop a message that never had a permanent error: after four failures of the
server, or seven of the network, one answer 429 is enough. -/
theorem dropped_when_throttled :
    (∃ log s, Gsm.StationRun Gsm.KeysScript.config log s ∧
      ¬Gsm.ExitsHaveReasons Gsm.KeysScript.config log) ∧
    ∃ log d, Android.DeviceRun Android.QueueScript.primitives log d ∧
      ¬Android.ExitsHaveReasons Android.QueueScript.primitives log := by
  have gsm : Gsm.ExitScript.result.any Gsm.ExitScript.dropsEarly = true := by decide +kernel
  have android : Android.ExitScript.result.any Android.ExitScript.dropsEarly = true := by
    decide +kernel
  obtain ⟨r, hr, early⟩ := (Option.any_eq_true _ _).mp gsm
  obtain ⟨r', hr', early'⟩ := (Option.any_eq_true _ _).mp android
  obtain ⟨t, hs, _⟩ := (Option.any_eq_true _ _).mp early
  obtain ⟨t', hs', _⟩ := (Option.any_eq_true _ _).mp early'
  exact ⟨⟨_, _, (run_of_exec hr).next hs, Gsm.ExitScript.not_exitsHaveReasons early⟩,
    _, _, (run_of_exec hr').next hs', Android.ExitScript.not_exitsHaveReasons early'⟩

end Syrotp
