import Syrotp.Server.Proofs.Routing

/-!
# Who is shown as healthy

The admin lists and the gauges compare the age of a heartbeat with the timeout in the process, and
take an age of exactly the timeout for fresh; the query of `pickReceiver` and the counts on the
overview and health pages compare in SQL, and do not.
-/

namespace Syrotp

variable {env : Env} {db : Db} {now : Time} {r : Receiver} {rows : List Receiver}

/-! ## The query of routing, row by row -/

/-- The query of `pickReceiver` for the receiver's own app and any operator looks at the row. -/
def eligible (env : Env) (now : Time) (r : Receiver) : Bool :=
  healthyReceiver env r.appId none now r

theorem eligible_eq :
    eligible env now r = (r.enabled && r.lastHeartbeatAt.any (withinInterval env now)) := by
  rw [Bool.eq_iff_iff, Bool.and_eq_true, fresh_iff_withinInterval]
  simp [eligible, healthyReceiver_iff, routable_iff]

/-! ## The views in the process -/

/-- The age is exactly the timeout. -/
def AtTimeout (env : Env) (now : Time) (r : Receiver) : Prop :=
  r.enabled = true ∧ ∃ heartbeat, r.lastHeartbeatAt = some heartbeat ∧
    now = heartbeat + env.config.receiverHeartbeatTimeoutSeconds * 1000

/-- `<=` in the process and `>` in SQL differ at one age. -/
theorem withinTimeout_eq_withinInterval {heartbeat : Time} :
    withinTimeout env now heartbeat = withinInterval env now heartbeat ↔
      ¬now = heartbeat + env.config.receiverHeartbeatTimeoutSeconds * 1000 := by
  have within : ∀ (a b c : Nat), ((a : Int) - b ≤ (c : Nat) ↔ a < b + c) ↔ ¬a = b + c := by
    intro a b c
    omega
  rw [Bool.eq_iff_iff, withinTimeout, withinInterval, decide_eq_true_iff, decide_eq_true_iff]
  exact within _ _ _

/-- `healthy` as the admin lists and the gauges compute it. -/
theorem healthy_eq_eligible :
    (r.enabled && r.lastHeartbeatAt.any (withinTimeout env now)) = eligible env now r ↔
      ¬AtTimeout env now r := by
  rw [eligible_eq, AtTimeout]
  cases r.enabled with
  | false => simp
  | true =>
    cases r.lastHeartbeatAt with
    | none => simp
    | some heartbeat =>
      rw [Bool.true_and, Bool.true_and, Option.any_some, Option.any_some,
        withinTimeout_eq_withinInterval]
      simp

theorem mem_newestFirst {rank : Id → Nat} : r ∈ newestFirst rank rows ↔ r ∈ rows :=
  List.mem_insertionSort _

/-- The list shows rows of the table. -/
theorem mem_listReceivers {rank : Id → Nat} {opts : ListReceiversOptions} {record : ReceiverRecord}
    (shown : record ∈ listReceivers env db now rank opts) :
    ∃ r ∈ db.receivers, record = receiverRecord env now r := by
  obtain ⟨r, listed, rfl⟩ := List.mem_map.mp shown
  exact ⟨r, List.mem_of_mem_filter (mem_newestFirst.mp listed), rfl⟩

/-- The page shows rows of the table. -/
theorem mem_fetchReceivers {rank : Id → Nat} {row : AdminReceiverRow}
    (shown : row ∈ fetchReceivers env db now rank) :
    ∃ r ∈ db.receivers, row = adminReceiverRow env now r := by
  obtain ⟨r, listed, rfl⟩ := List.mem_map.mp shown
  exact ⟨r, mem_newestFirst.mp (List.mem_of_mem_take listed), rfl⟩

/-! ## The gauges -/

/-- The loop counts the healthy rows. -/
theorem foldl_countReceiver {g : ReceiverGauges} :
    (rows.foldl (countReceiver env now) g).healthyTotal = g.healthyTotal +
      rows.countP fun r => r.enabled && r.lastHeartbeatAt.any (withinTimeout env now) := by
  induction rows generalizing g with
  | nil => rfl
  | cons r rows ih =>
    have turn : (countReceiver env now g r).healthyTotal =
        if r.enabled && r.lastHeartbeatAt.any (withinTimeout env now) then g.healthyTotal + 1
        else g.healthyTotal := rfl
    rw [List.foldl_cons, ih, List.countP_cons, turn]
    split <;> omega

theorem receiverGauges_healthyTotal : (receiverGauges env now rows).healthyTotal =
    rows.countP fun r => r.enabled && r.lastHeartbeatAt.any (withinTimeout env now) := by
  rw [receiverGauges, foldl_countReceiver, Nat.zero_add]

/-- What one row adds to the gauge. -/
theorem receiverGauges_row {before after : List Receiver} :
    (receiverGauges env now (before ++ r :: after)).healthyTotal =
      (receiverGauges env now (before ++ after)).healthyTotal +
        if r.enabled && r.lastHeartbeatAt.any (withinTimeout env now) then 1 else 0 := by
  simp only [receiverGauges_healthyTotal, List.countP_append, List.countP_cons]
  omega

/-! ## The views in the database -/

/-- The counts of the overview and of the health page are those of routing. -/
theorem counts_eligible :
    (fetchOverviewCounts env now rows).healthy = rows.countP (eligible env now) ∧
      (fetchHealthCounts env now rows).healthy = rows.countP (eligible env now) := by
  have same : eligible env now = fun r =>
      r.enabled && r.lastHeartbeatAt.any (withinInterval env now) := funext fun _ => eligible_eq
  rw [same]
  exact ⟨rfl, rfl⟩

/-- What one row adds to them. -/
theorem counts_row {before after : List Receiver} :
    (fetchOverviewCounts env now (before ++ r :: after)).healthy =
        (fetchOverviewCounts env now (before ++ after)).healthy +
          (if eligible env now r then 1 else 0) ∧
      (fetchHealthCounts env now (before ++ r :: after)).healthy =
        (fetchHealthCounts env now (before ++ after)).healthy +
          if eligible env now r then 1 else 0 := by
  simp only [counts_eligible, List.countP_append, List.countP_cons]
  omega

/-! ## The views and the routing -/

/-- Wherever the row is in a table, the admin list, the admin page, the gauges and the counts of the
other pages have it as healthy exactly if the query of `pickReceiver` finds it eligible. -/
structure ViewsAgree (env : Env) (now : Time) (r : Receiver) : Prop where
  list : ∀ (db : Db) rank opts, (db.receivers.map (·.id)).Nodup → r ∈ db.receivers →
    ∀ record ∈ listReceivers env db now rank opts, record.id = r.id →
      record.healthy = eligible env now r
  page : ∀ (db : Db) rank, (db.receivers.map (·.id)).Nodup → r ∈ db.receivers →
    ∀ row ∈ fetchReceivers env db now rank, row.id = r.id → row.healthy = eligible env now r
  gauges : ∀ before after, (receiverGauges env now (before ++ r :: after)).healthyTotal =
    (receiverGauges env now (before ++ after)).healthyTotal + if eligible env now r then 1 else 0
  overview : ∀ before after, (fetchOverviewCounts env now (before ++ r :: after)).healthy =
    (fetchOverviewCounts env now (before ++ after)).healthy + if eligible env now r then 1 else 0
  health : ∀ before after, (fetchHealthCounts env now (before ++ r :: after)).healthy =
    (fetchHealthCounts env now (before ++ after)).healthy + if eligible env now r then 1 else 0

/-- The list of a table with one row. -/
theorem listReceivers_alone : listReceivers env { Db.empty with receivers := [r] } now (fun _ => 0)
    ⟨none, none⟩ = [receiverRecord env now r] := by
  simp [listReceivers, newestFirst]

/-- They agree on every row but an enabled one whose heartbeat is exactly as old as the timeout. -/
theorem views_agree (env : Env) (now : Time) (r : Receiver) :
    ViewsAgree env now r ↔ ¬(r.enabled = true ∧ ∃ heartbeat, r.lastHeartbeatAt = some heartbeat ∧
      now = heartbeat + env.config.receiverHeartbeatTimeoutSeconds * 1000) := by
  constructor
  · intro h
    refine healthy_eq_eligible.mp (h.list { Db.empty with receivers := [r] } (fun _ => 0)
      ⟨none, none⟩ (List.nodup_singleton _) List.mem_cons_self (receiverRecord env now r) ?_ rfl)
    rw [listReceivers_alone]
    exact List.mem_cons_self
  · intro off
    have same := healthy_eq_eligible.mpr off
    refine ⟨?_, ?_, ?_, fun _ _ => counts_row.1, fun _ _ => counts_row.2⟩
    · intro db rank opts unique hr record shown own
      obtain ⟨r', hr', rfl⟩ := mem_listReceivers shown
      obtain rfl := eq_of_key unique hr' hr own
      exact same
    · intro db rank unique hr row shown own
      obtain ⟨r', hr', rfl⟩ := mem_fetchReceivers shown
      obtain rfl := eq_of_key unique hr' hr own
      exact same
    · intro before after
      rw [receiverGauges_row, same]

/-- A table with one receiver, that was heard of at second 100. -/
def lone : Db := { Db.empty with receivers := [RoutingScript.receiver 1 "syriatel" 20] }

/-- A receiver that was heard of exactly 120 seconds ago is shown as healthy, and is not picked. -/
theorem views_disagree : ¬∀ (env : Env) (now : Time) (r : Receiver), ViewsAgree env now r := by
  intro h
  have shown := (h .ascii 220000 (RoutingScript.receiver 1 "syriatel" 20)).list lone (fun _ => 0)
    ⟨none, none⟩ (List.nodup_singleton _) List.mem_cons_self _
    (listReceivers_alone ▸ List.mem_cons_self) rfl
  exact absurd shown (by decide +kernel)

end Syrotp
