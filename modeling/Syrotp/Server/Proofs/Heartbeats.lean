import Syrotp.Server.Proofs.Routing
import Mathlib.Data.List.Chain

/-!
# Skipped heartbeats

The heartbeat route leaves the stored heartbeat alone while it is not older than a quarter of the
timeout. What is stored is then never more than that quarter behind the last heartbeat, and a
receiver that posts every half of the timeout stays fresh.
-/

namespace Syrotp

variable {env : Env} {receivers : List Receiver} {id : Id} {now : Time} {r : Receiver}

/-- A heartbeat that was accepted. -/
structure Heartbeat where
  time : Time
  receiverId : Id
  deriving DecidableEq, Repr

/-- The receivers once the heartbeats were handled, one after the other. -/
def afterHeartbeats (env : Env) (receivers : List Receiver) (beats : List Heartbeat) :
    List Receiver :=
  beats.foldl (fun rows beat => (heartbeat env rows beat.time beat.receiverId).1) receivers

/-- When the heartbeats of one receiver came. -/
def heartbeatTimes (id : Id) (beats : List Heartbeat) : List Time :=
  (beats.filter fun beat => beat.receiverId = id).map (·.time)

/-- The row of the receiver is at most the coalescing threshold behind `last`. -/
def UpToDate (env : Env) (id : Id) (last : Time) (receivers : List Receiver) : Prop :=
  ∃ r stored, receivers.find? (fun r => r.id = id) = some r ∧ r.lastHeartbeatAt = some stored ∧
    last ≤ stored + coalesceThresholdSec env * 1000

/-! ## One heartbeat -/

/-- What the UPDATE of the route makes of the row that a query finds. -/
theorem find?_lastHeartbeatAt {other : Id} :
    (updateWhere (fun r => r.id = other) (fun r => { r with lastHeartbeatAt := some now })
        receivers).find? (fun r => r.id = id) =
      (receivers.find? fun r => r.id = id).map fun r =>
        if r.id = other then { r with lastHeartbeatAt := some now } else r := by
  induction receivers with
  | nil => rfl
  | cons r receivers ih =>
    rw [updateWhere] at ih ⊢
    by_cases written : r.id = other <;> by_cases own : r.id = id <;>
      simp_all

/-- The heartbeat of another receiver leaves the row alone. -/
theorem heartbeat_other {other : Id} (differs : other ≠ id) :
    (heartbeat env receivers now other).1.find? (fun r => r.id = id) =
      receivers.find? fun r => r.id = id := by
  simp only [heartbeat]
  split
  · rw [find?_lastHeartbeatAt]
    cases found : receivers.find? fun r => r.id = id with
    | none => rfl
    | some r =>
      have own : r.id = id := by simpa using List.find?_some found
      have left : r.id ≠ other := by
        rw [own]
        exact differs.symm
      simp [left]
  · rfl

/-- After its own heartbeat a receiver is up to date, whether the row was written or not. -/
theorem heartbeat_own (found : receivers.find? (fun r => r.id = id) = some r) :
    UpToDate env id now (heartbeat env receivers now id).1 := by
  have own : r.id = id := by simpa using List.find?_some found
  by_cases due : heartbeatDue env now r.lastHeartbeatAt
  · refine ⟨{ r with lastHeartbeatAt := some now }, now, ?_, rfl, Nat.le_add_right _ _⟩
    simp only [heartbeat, found, Option.bind_some]
    rw [if_pos due, find?_lastHeartbeatAt, found]
    simp [own]
  · -- the stored heartbeat is there and not older than the threshold
    cases heard : r.lastHeartbeatAt with
    | none =>
      rw [heard] at due
      exact absurd rfl due
    | some stored =>
      rw [heard] at due
      refine ⟨r, stored, ?_, heard, ?_⟩
      · simp only [heartbeat, found, Option.bind_some, heard]
        rw [if_neg due]
        exact found
      · simp only [heartbeatDue, decide_eq_true_eq, not_lt] at due
        exact Int.ofNat_le.mp (Int.le_add_of_sub_left_le due)

/-- A heartbeat keeps the row of every receiver in the table. -/
theorem heartbeat_present {other : Id} (found : receivers.find? (fun r => r.id = id) = some r) :
    ∃ r', (heartbeat env receivers now other).1.find? (fun r => r.id = id) = some r' := by
  by_cases own : other = id
  · have kept : UpToDate env id now (heartbeat env receivers now id).1 := heartbeat_own found
    obtain ⟨r', _, found', _⟩ := kept
    rw [own]
    exact ⟨r', found'⟩
  · rw [heartbeat_other own]
    exact ⟨r, found⟩

/-! ## A run of heartbeats -/

theorem afterHeartbeats_concat {beats : List Heartbeat} {beat : Heartbeat} :
    afterHeartbeats env receivers (beats ++ [beat]) =
      (heartbeat env (afterHeartbeats env receivers beats) beat.time beat.receiverId).1 := by
  simp [afterHeartbeats]

theorem heartbeatTimes_append {beats beats' : List Heartbeat} :
    heartbeatTimes id (beats ++ beats') = heartbeatTimes id beats ++ heartbeatTimes id beats' := by
  simp [heartbeatTimes]

theorem afterHeartbeats_present {beats : List Heartbeat}
    (found : receivers.find? (fun r => r.id = id) = some r) :
    ∃ r', (afterHeartbeats env receivers beats).find? (fun r => r.id = id) = some r' := by
  induction beats using List.reverseRecOn with
  | nil => exact ⟨r, found⟩
  | append_singleton beats beat ih =>
    obtain ⟨r', found'⟩ := ih
    rw [afterHeartbeats_concat]
    exact heartbeat_present found'

/-- The row is up to date with the last heartbeat of its receiver: that heartbeat made it so, and
those of the others left it alone. -/
theorem afterHeartbeats_upToDate {beats : List Heartbeat} {last : Time}
    (found : receivers.find? (fun r => r.id = id) = some r)
    (latest : last ∈ (heartbeatTimes id beats).getLast?) :
    UpToDate env id last (afterHeartbeats env receivers beats) := by
  induction beats using List.reverseRecOn with
  | nil => simp [heartbeatTimes] at latest
  | append_singleton beats beat ih =>
    rw [afterHeartbeats_concat]
    by_cases own : beat.receiverId = id
    · have time : beat.time = last := by
        simpa [heartbeatTimes_append, heartbeatTimes, own] using latest
      have present : ∃ r', (afterHeartbeats env receivers beats).find? (fun r => r.id = id) =
          some r' := afterHeartbeats_present found
      obtain ⟨r', found'⟩ := present
      rw [own, time]
      exact heartbeat_own found'
    · have earlier : last ∈ (heartbeatTimes id beats).getLast? := by
        simpa [heartbeatTimes_append, heartbeatTimes, own] using latest
      obtain ⟨r', stored, found', heard, near⟩ := ih earlier
      refine ⟨r', stored, ?_, heard, near⟩
      rw [heartbeat_other own]
      exact found'

/-- A quarter and a half of the timeout, each in whole seconds, are less than all of it. -/
theorem quarter_and_half {timeout last stored t : Nat} (range : 30 ≤ timeout)
    (near : last ≤ stored + timeout / 4 * 1000) (soon : t ≤ last + timeout / 2 * 1000) :
    t < stored + timeout * 1000 := by omega

/-- A row that is up to date stays fresh for half of the timeout. -/
theorem UpToDate.fresh {last t : Time} (h : UpToDate env id last receivers)
    (soon : t ≤ last + nextHeartbeatSeconds env * 1000) :
    ∃ r, receivers.find? (fun r => r.id = id) = some r ∧ Fresh env t r := by
  obtain ⟨r, stored, found, heard, near⟩ := h
  refine ⟨r, found, stored, heard, ?_⟩
  exact quarter_and_half env.config.heartbeatTimeout_range near soon

/-! ## Coalescing -/

/-- The heartbeats of a receiver come at most `next_heartbeat_seconds` apart, among any of other
receivers. Then at every moment `t` with `before` handled and `after` to come, from the first of
its heartbeats to `next_heartbeat_seconds` after the last, the query of `pickReceiver` takes the
receiver for healthy if it is enabled. -/
theorem heartbeats_keep_healthy {before after : List Heartbeat} {t last : Time}
    (found : receivers.find? (fun r => r.id = id) = some r)
    (frequent : (heartbeatTimes id (before ++ after)).IsChain
      fun t t' => t' ≤ t + nextHeartbeatSeconds env * 1000)
    (begun : heartbeatTimes id before ≠ [])
    (toCome : ∀ beat ∈ after, t ≤ beat.time)
    (latest : last ∈ (heartbeatTimes id (before ++ after)).getLast?)
    (soon : t ≤ last + nextHeartbeatSeconds env * 1000) :
    ∃ r, (afterHeartbeats env receivers before).find? (fun r => r.id = id) = some r ∧
      Fresh env t r ∧ healthyReceiver env r.appId none t r = r.enabled := by
  obtain ⟨own, lastOwn⟩ : ∃ own, own ∈ (heartbeatTimes id before).getLast? :=
    ⟨_, List.getLast?_eq_getLast_of_ne_nil begun⟩
  rw [heartbeatTimes_append] at frequent latest
  have near : t ≤ own + nextHeartbeatSeconds env * 1000 := by
    cases next : heartbeatTimes id after with
    | nil =>
      rw [next, List.append_nil] at latest
      obtain rfl := Option.mem_unique lastOwn latest
      exact soon
    | cons time times =>
      have gap : time ≤ own + nextHeartbeatSeconds env * 1000 :=
        (List.isChain_append.mp frequent).2.2 own lastOwn time (by rw [next]; rfl)
      have mem : time ∈ heartbeatTimes id after := by simp [next]
      obtain ⟨beat, hbeat, rfl⟩ := List.mem_map.mp mem
      exact (toCome beat (List.mem_of_mem_filter hbeat)).trans gap
  have upToDate : UpToDate env id own (afterHeartbeats env receivers before) :=
    afterHeartbeats_upToDate found lastOwn
  obtain ⟨r', found', fresh⟩ := upToDate.fresh near
  refine ⟨r', found', fresh, ?_⟩
  rw [Bool.eq_iff_iff, healthyReceiver_iff, routable_iff]
  simp [fresh]

namespace HeartbeatScript

/-- A minute apart, as the default timeout of 120 seconds asks for; the one in between is of
another receiver. -/
def beats : List Heartbeat :=
  [⟨1000, newId .receiver 1⟩, ⟨25000, newId .receiver 2⟩, ⟨61000, newId .receiver 1⟩]

end HeartbeatScript

/-- 60 seconds after the last heartbeat, the last millisecond that is covered. -/
theorem heartbeats_keep_healthy_script : ∃ r,
    (afterHeartbeats .ascii RoutingScript.fleet.receivers HeartbeatScript.beats).find?
      (fun r => r.id = newId .receiver 1) = some r ∧ Fresh .ascii 121000 r ∧
      healthyReceiver .ascii r.appId none 121000 r = r.enabled := by
  have first : RoutingScript.fleet.receivers.find? (fun r => r.id = newId .receiver 1) =
      some (RoutingScript.receiver 1 "syriatel" 20) := by decide +kernel
  have latest : 61000 ∈
      (heartbeatTimes (newId .receiver 1) (HeartbeatScript.beats ++ [])).getLast? := by
    decide +kernel
  exact heartbeats_keep_healthy first (by decide +kernel) (by decide +kernel)
    (fun _ h => absurd h List.not_mem_nil) latest (by decide +kernel)

end Syrotp
