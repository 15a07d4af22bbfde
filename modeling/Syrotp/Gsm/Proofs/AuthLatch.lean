import Syrotp.Gsm.Proofs.Keys

/-!
# The latch of the GSM gateway

After a 401 the worker takes no further snapshot, but it goes on with the one it has. So the latch
stops the uploads exactly when the refused item was the last of its batch.
-/

namespace Syrotp.Gsm

variable {cfg : GatewayConfig} {s t u : Station} {a : Action} {log : List (Station × Action)}
  {item : QueueItem} {rest : List QueueItem}

/-- The reader can read the modem, and queues what it has read. -/
structure Station.ReaderWorks (cfg : GatewayConfig) (u : Station) : Prop where
  polls : u.reading = [] → ∀ clock reads, u.Brings reads →
    ∃ v, u.step cfg (.poll clock reads) = some v
  queues : ∀ r rest, u.reading = r :: rest → u.isQueued = false → ∀ now, ∃ v,
    u.step cfg (.add now) = some v ∧ ∃ row ∈ v.queue.rows, row.idempotencyKey = r.key cfg

/-- As long as the process lives, nothing is uploaded from here on, every row of the queue stays as
it is, and the reader works. -/
structure Latched (cfg : GatewayConfig) (t : Station) : Prop where
  silent : ∀ log u, Run (Station.step cfg) t log u → (∀ e ∈ log, e.2 ≠ .restart) →
    ∀ e ∈ log, ∀ reply now, e.2 ≠ .upload reply now
  kept : ∀ log u, Run (Station.step cfg) t log u → (∀ e ∈ log, e.2 ≠ .restart) →
    ∀ row ∈ t.queue.rows, row ∈ u.queue.rows
  reader : ∀ log u, Run (Station.step cfg) t log u → (∀ e ∈ log, e.2 ≠ .restart) →
    u.ReaderWorks cfg

/-! ## A stopped worker -/

/-- The latch is set and the batch is done. -/
structure Station.Stopped (s : Station) : Prop where
  failed : s.authFailed = true
  done : s.sending = []

theorem hasKey_add (q : InboundQueue) (now : Int) (p : Payload) :
    ∃ row ∈ (q.add now p).2.rows, row.idempotencyKey = p.idempotencyKey := by
  unfold InboundQueue.add
  split
  · next taken => exact hasKey_iff.mp taken
  · exact ⟨_, List.mem_append_right _ (List.mem_singleton_self _), rfl⟩

theorem Station.readerWorks (u : Station) : u.ReaderWorks cfg where
  polls idle clock reads brings := by
    simp only [Station.step, idle, if_pos brings]
    exact ⟨_, rfl⟩
  queues r rest first new now := by
    simp only [Station.step, first, new]
    exact ⟨_, rfl, hasKey_add _ _ _⟩

theorem Station.Stopped.step (h : s.Stopped) (hs : s.step cfg a = some t) (alive : a ≠ .restart) :
    t.Stopped ∧ ∀ row ∈ s.queue.rows, row ∈ t.queue.rows := by
  cases Station.step_cases hs with
  | arrived _ => exact ⟨⟨h.failed, h.done⟩, fun _ => id⟩
  | polled _ _ => exact ⟨⟨h.failed, h.done⟩, fun _ => id⟩
  | added _ _ => exact ⟨⟨h.failed, h.done⟩, fun _ => mem_add_of_mem⟩
  | deleted _ _ => exact ⟨⟨h.failed, h.done⟩, fun _ => id⟩
  | readerFailed => exact ⟨⟨h.failed, h.done⟩, fun _ => id⟩
  | drained _ allowed => exact absurd (h.failed.symm.trans allowed) (by decide)
  | uploaded first _ => exact absurd (h.done.symm.trans first) (List.cons_ne_nil _ _).symm
  | workerFailed => exact ⟨⟨h.failed, rfl⟩, fun _ => id⟩
  | restarted => exact absurd rfl alive

theorem Station.Stopped.run (h : s.Stopped) (run : Run (Station.step cfg) s log u)
    (alive : ∀ e ∈ log, e.2 ≠ .restart) : u.Stopped ∧ ∀ row ∈ s.queue.rows, row ∈ u.queue.rows := by
  refine run.invariant_of (fun u => u.Stopped ∧ ∀ row ∈ s.queue.rows, row ∈ u.queue.rows)
    (fun _ a => a ≠ .restart) ⟨h, fun _ => id⟩ ?_ alive
  rintro u a v ⟨stopped, kept⟩ alive hs
  obtain ⟨stopped', kept'⟩ := stopped.step hs alive
  exact ⟨stopped', fun row hrow => kept' row (kept row hrow)⟩

theorem Station.Stopped.latched (h : t.Stopped) : Latched cfg t where
  silent log u run alive e he reply now upload := by
    obtain ⟨log₁, v, log₂, rfl, before, hs, _⟩ := run.split he
    have stopped := (h.run before fun e he => alive e (List.mem_append_left _ he)).1
    rw [upload] at hs
    cases Station.step_cases hs with
    | uploaded first _ => exact absurd (stopped.done.symm.trans first) (List.cons_ne_nil _ _).symm
  kept log u run alive := (h.run run alive).2
  reader log u _ _ := u.readerWorks

/-- A worker with an item left can post it, whatever the latch says. -/
theorem not_latched_of_sending (left : t.sending = item :: rest) : ¬Latched cfg t := by
  intro latched
  have posts : t.step cfg (.upload (.lost false) 0) = some (t.post item rest 0 (.lost false)) := by
    simp only [Station.step, left]
    rfl
  refine latched.silent _ _ (.single posts) ?_ _ (List.mem_singleton_self _) _ _ rfl
  intro e he
  rw [List.mem_singleton.mp he]
  rintro ⟨⟩

/-! ## After a 401 -/

/-- After a 401 the latch holds exactly if the item was the last of its batch. -/
theorem latched_iff {now : Int} {stored : Bool} (first : s.sending = item :: rest)
    (answer : s.step cfg (.upload (.refused 401 stored) now) = some t) :
    Latched cfg t ↔ rest = [] := by
  have after : t = s.post item rest now (.refused 401 stored) := by
    simp only [Station.step, first] at answer
    exact (Option.some.inj answer).symm
  have failed : t.authFailed = true := by
    rw [after]
    exact Bool.or_true _
  have left : t.sending = rest := by
    rw [after]
    rfl
  constructor
  · intro latched
    cases rest with
    | nil => rfl
    | cons next more => exact absurd latched (not_latched_of_sending left)
  · rintro rfl
    exact Station.Stopped.latched ⟨failed, left⟩

namespace LatchScript

/-- The messages are read and queued one by one, and the worker takes its snapshot. -/
def actions (messages : List StoredSms) : List Action :=
  (messages.flatMap fun m =>
    [.arrive m, .poll (fun _ => 0) (answered [m]), .add 0, .delete true]) ++ [.drain 0]

def result (messages : List StoredSms) : Option (List (Station × Action) × Station) :=
  exec (Station.step KeysScript.config) .init (actions messages)

/-- What the worker has in its snapshot. -/
def batch (messages : List StoredSms) : Option Nat :=
  (result messages).map fun r => r.2.sending.length

theorem run (messages : List StoredSms) {n : Nat} (h : batch messages = some n) :
    ∃ log s, StationRun KeysScript.config log s ∧ s.sending.length = n := by
  obtain ⟨⟨log, s⟩, hrun, hn⟩ := Option.map_eq_some_iff.mp h
  exact ⟨log, s, run_of_exec hrun, hn⟩

end LatchScript

/-- A message alone in its batch, answered 401. -/
theorem latched_script : ∃ log s item t, StationRun KeysScript.config log s ∧
    s.sending = [item] ∧
    s.step KeysScript.config (.upload (.refused 401 false) 0) = some t ∧
    Latched KeysScript.config t := by
  obtain ⟨log, s, run, one⟩ := LatchScript.run (KeysScript.twoSeconds.take 1) (n := 1)
    (by decide +kernel)
  obtain ⟨item, first⟩ := List.length_eq_one_iff.mp one
  have answer : s.step KeysScript.config (.upload (.refused 401 false) 0) =
      some (s.post item [] 0 (.refused 401 false)) := by
    simp only [Station.step, first]
    rfl
  exact ⟨log, s, item, _, run, first, answer, (latched_iff first answer).mpr rfl⟩

/-- Two messages in one batch: the first is answered 401, and the second is posted after that. -/
theorem posts_after_unauthorized : ∃ log s item next t, StationRun KeysScript.config log s ∧
    s.sending = [item, next] ∧
    s.step KeysScript.config (.upload (.refused 401 false) 0) = some t ∧
    ¬Latched KeysScript.config t := by
  obtain ⟨log, s, run, two⟩ := LatchScript.run KeysScript.twoSeconds (n := 2)
    (by decide +kernel)
  obtain ⟨item, next, first⟩ := List.length_eq_two.mp two
  have answer : s.step KeysScript.config (.upload (.refused 401 false) 0) =
      some (s.post item [next] 0 (.refused 401 false)) := by
    simp only [Station.step, first]
    rfl
  exact ⟨log, s, item, next, _, run, first, answer, not_latched_of_sending rfl⟩

end Syrotp.Gsm
