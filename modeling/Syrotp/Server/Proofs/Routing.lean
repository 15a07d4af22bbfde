import Syrotp.Server.Proofs.InboundStep
import Syrotp.Server.Receivers
import Mathlib.Data.List.MinMax
import Mathlib.Data.Prod.Lex

/-!
# Which receiver is picked

`runHealthyReceiverQuery` gives a least receiver of those it looks at, and nothing only if it looks
at none; `pickReceiver` puts the two queries together, as the statements of `startVerification` do.
-/

namespace Syrotp

variable {env : Env} {db : Db} {appId : Id} {now : Time} {r : Receiver}

/-! ## What makes a receiver routable -/

/-- The receiver was heard of within the timeout. -/
def Fresh (env : Env) (now : Time) (r : Receiver) : Prop :=
  ∃ heartbeat, r.lastHeartbeatAt = some heartbeat ∧
    now < heartbeat + env.config.receiverHeartbeatTimeoutSeconds * 1000

/-- An enabled receiver of the app that was heard of within the timeout. -/
structure Routable (env : Env) (appId : Id) (now : Time) (r : Receiver) : Prop where
  app : r.appId = appId
  enabled : r.enabled = true
  fresh : Fresh env now r

/-- What a pick is to be least in: the pending rows of the receiver, then its age. -/
def load (db : Db) (r : Receiver) : ℕ ×ₗ ℕ :=
  toLex (db.verifications.countP fun v => v.receiverId = r.id ∧ v.status = .pending, r.createdAt)

theorem load_eq (db : Db) (r : Receiver) : load db r = toLex (pendingCount db r.id, r.createdAt) := by
  simp only [load, pendingCount, and_comm]

theorem fresh_iff_withinInterval :
    r.lastHeartbeatAt.any (withinInterval env now) = true ↔ Fresh env now r := by
  cases heard : r.lastHeartbeatAt with
  | none => simp [Fresh, heard]
  | some heartbeat => simp [Fresh, heard, withinInterval]

theorem routable_iff : Routable env appId now r ↔
    r.appId = appId ∧ r.enabled = true ∧ Fresh env now r :=
  ⟨fun h => ⟨h.app, h.enabled, h.fresh⟩, fun h => ⟨h.1, h.2.1, h.2.2⟩⟩

/-- The rows that the load query looks at. -/
theorem healthyReceiver_iff {operator : Option Text} :
    healthyReceiver env appId operator now r = true ↔
      Routable env appId now r ∧ ∀ o, operator = some o → r.operator = some o := by
  unfold healthyReceiver
  rw [routable_iff, ← fresh_iff_withinInterval]
  cases r.lastHeartbeatAt <;> cases operator <;> simp [withinInterval, and_assoc]

/-! ## The load query -/

/-- The rows that no row comes before. -/
theorem mem_least {rows : List Receiver} :
    r ∈ rows.filter (fun r => rows.all fun r' =>
        !decide (pendingCount db r'.id < pendingCount db r.id ∨
          (pendingCount db r'.id = pendingCount db r.id ∧ r'.createdAt < r.createdAt))) ↔
      r ∈ rows ∧ ∀ r' ∈ rows, load db r ≤ load db r' := by
  rw [List.mem_filter, List.all_eq_true]
  refine and_congr_right fun _ => forall₂_congr fun r' _ => ?_
  rw [Bool.not_eq_true', decide_eq_false_iff_not, ← not_lt]
  apply not_congr
  rw [load_eq, load_eq, Prod.Lex.toLex_lt_toLex]

theorem least_ne_nil {rows : List Receiver} (some : rows ≠ []) :
    ∃ r ∈ rows, ∀ r' ∈ rows, load db r ≤ load db r' := by
  cases least : rows.argmin (load db) with
  | none => exact absurd (List.argmin_eq_none.mp least) some
  | some r => exact ⟨r, List.argmin_mem least, fun r' hr' => List.le_of_mem_argmin hr' least⟩

/-- The query gives a receiver that is healthy and has the least load of those. -/
theorem runHealthyReceiverQuery_some {operator : Option Text} {tie : Nat}
    (h : runHealthyReceiverQuery env db appId operator now tie = some r) :
    r ∈ db.receivers ∧ healthyReceiver env appId operator now r = true ∧
      ∀ r' ∈ db.receivers, healthyReceiver env appId operator now r' = true →
        load db r ≤ load db r' := by
  have found := mem_least.mp (limitOne_mem h)
  rw [List.mem_filter] at found
  obtain ⟨⟨mem, healthy⟩, least⟩ := found
  refine ⟨mem, healthy, ?_⟩
  intro r' hr' healthy'
  exact least r' (List.mem_filter.mpr ⟨hr', healthy'⟩)

/-- It gives nothing exactly if no receiver is healthy. -/
theorem runHealthyReceiverQuery_none {operator : Option Text} {tie : Nat} :
    runHealthyReceiverQuery env db appId operator now tie = none ↔
      ∀ r ∈ db.receivers, healthyReceiver env appId operator now r ≠ true := by
  constructor
  · intro none r hr healthy
    have present : db.receivers.filter (healthyReceiver env appId operator now) ≠ [] :=
      List.ne_nil_of_mem (List.mem_filter.mpr ⟨hr, healthy⟩)
    obtain ⟨least, mem, first⟩ := least_ne_nil present
    have found := mem_least.mpr ⟨mem, first⟩
    rw [limitOne_eq_none none] at found
    exact absurd found List.not_mem_nil
  · intro unhealthy
    cases found : runHealthyReceiverQuery env db appId operator now tie with
    | none => rfl
    | some r =>
      have picked := runHealthyReceiverQuery_some found
      exact absurd picked.2.1 (unhealthy r picked.1)

/-! ## The pick -/

theorem givenOperator_eq_some {preferred : Option Text} {o : Text} :
    givenOperator preferred = some o ↔ preferred = some o ∧ o ≠ [] := by
  simp [givenOperator, Option.filter_eq_some_iff]

theorem givenOperator_eq_none {preferred : Option Text} :
    givenOperator preferred = none ↔ preferred = none ∨ preferred = some [] := by
  rcases preferred with _ | _ | ⟨c, o⟩ <;> simp [givenOperator, Option.filter]

/-- A routable receiver of the operator. -/
def Available (env : Env) (db : Db) (appId : Id) (now : Time) (operator : Text) : Prop :=
  ∃ r ∈ db.receivers, Routable env appId now r ∧ r.operator = some operator

/-- The receivers to choose from: the routable ones, of the operator given if any is. -/
def Candidate (env : Env) (db : Db) (appId : Id) (operator : Option Text) (now : Time)
    (r : Receiver) : Prop :=
  r ∈ db.receivers ∧ Routable env appId now r ∧
    ∀ o, operator = some o → Available env db appId now o → r.operator = some o

/-- What `pickReceiver` promises of the receiver it picks. -/
structure PickedWell (env : Env) (db : Db) (appId : Id) (operator : Option Text) (now : Time)
    (r : Receiver) (m : ReceiverMatch) : Prop where
  candidate : Candidate env db appId operator now r
  preferred : (∃ o, operator = some o ∧ r.operator = some o) ↔
    ∃ o, operator = some o ∧ Available env db appId now o
  least : ∀ r', Candidate env db appId operator now r' → load db r ≤ load db r'
  label : m = match operator with
    | none => ReceiverMatch.none
    | some o => if r.operator = some o then .preferred else .fallback

theorem pickReceiver_none {preferred : Option Text} {tie tie' : Nat} :
    pickReceiver env db appId preferred now tie tie' = none ↔
      ¬∃ r ∈ db.receivers, Routable env appId now r := by
  have anyone : runHealthyReceiverQuery env db appId none now tie' = none ↔
      ¬∃ r ∈ db.receivers, Routable env appId now r := by
    rw [runHealthyReceiverQuery_none]
    simp [healthyReceiver_iff]
  rw [← anyone, pickReceiver]
  split
  · next r found =>
    have routable : ∃ r ∈ db.receivers, Routable env appId now r := by
      split at found
      · exact nomatch found
      · have picked := runHealthyReceiverQuery_some found
        exact ⟨r, picked.1, (healthyReceiver_iff.mp picked.2.1).1⟩
    simp [anyone, routable]
  · cases runHealthyReceiverQuery env db appId none now tie' <;> simp

/-- The query for any operator picks well where none was given, or none of it is available. -/
theorem pickedWell_any {operator : Option Text} {tie : Nat}
    (h : runHealthyReceiverQuery env db appId none now tie = some r)
    (unavailable : ∀ o, operator = some o → ¬Available env db appId now o) :
    PickedWell env db appId operator now r (if operator.isSome then .fallback else .none) := by
  have picked := runHealthyReceiverQuery_some h
  have routable := (healthyReceiver_iff.mp picked.2.1).1
  have other : ∀ o, operator = some o → r.operator ≠ some o := by
    intro o given carried
    exact unavailable o given ⟨r, picked.1, routable, carried⟩
  refine ⟨⟨picked.1, routable, ?_⟩, ?_, ?_, ?_⟩
  · intro o given available
    exact absurd available (unavailable o given)
  · apply iff_of_false
    · rintro ⟨o, given, carried⟩
      exact other o given carried
    · rintro ⟨o, given, available⟩
      exact unavailable o given available
  · rintro r' ⟨mem, routable', _⟩
    exact picked.2.2 r' mem (healthyReceiver_iff.mpr ⟨routable', forall_of_none⟩)
  · cases operator with
    | none => rfl
    | some o => simp [other o rfl]

/-- The query for an operator picks well where that operator was given. -/
theorem pickedWell_preferred {o : Text} {tie : Nat}
    (h : runHealthyReceiverQuery env db appId (some o) now tie = some r) :
    PickedWell env db appId (some o) now r .preferred := by
  have picked := runHealthyReceiverQuery_some h
  obtain ⟨routable, carried⟩ := healthyReceiver_iff.mp picked.2.1
  have carrier : r.operator = some o := carried o rfl
  have available : Available env db appId now o := ⟨r, picked.1, routable, carrier⟩
  refine ⟨⟨picked.1, routable, fun o' same _ => carried o' same⟩, ?_, ?_, by simp [carrier]⟩
  · exact iff_of_true ⟨o, rfl, carrier⟩ ⟨o, rfl, available⟩
  · rintro r' ⟨mem, routable', sameCarrier⟩
    apply picked.2.2 r' mem
    refine healthyReceiver_iff.mpr ⟨routable', fun o' same => ?_⟩
    obtain rfl := Option.some.inj same
    exact sameCarrier o rfl available

theorem pickReceiver_some {preferred : Option Text} {tie tie' : Nat} {p : PickedReceiver}
    (h : pickReceiver env db appId preferred now tie tie' = some p) :
    ∃ r, p = r.picked p.receiverMatch ∧
      PickedWell env db appId (givenOperator preferred) now r p.receiverMatch := by
  have any : ∀ o, givenOperator preferred = some o →
      runHealthyReceiverQuery env db appId (some o) now tie = none →
        ¬Available env db appId now o := by
    rintro o _ empty ⟨r', mem, routable, carrier⟩
    apply runHealthyReceiverQuery_none.mp empty r' mem
    refine healthyReceiver_iff.mpr ⟨routable, fun o' same => ?_⟩
    rw [carrier, same]
  unfold pickReceiver at h
  cases given : givenOperator preferred with
  | none =>
    simp only [given] at h
    split at h
    · exact nomatch h
    · next r found =>
      obtain rfl := Option.some.inj h
      exact ⟨r, rfl, pickedWell_any found nofun⟩
  | some o =>
    simp only [given] at h
    split at h
    · next r found =>
      obtain rfl := Option.some.inj h
      exact ⟨r, rfl, pickedWell_preferred found⟩
    · next empty =>
      split at h
      · exact nomatch h
      · next r found =>
        obtain rfl := Option.some.inj h
        refine ⟨r, rfl, pickedWell_any found fun o' same => ?_⟩
        obtain rfl := Option.some.inj same
        exact any o given empty

/-! ## The statements of a start -/

/-- The first query of the pick. -/
def pickEntry (input : StartVerificationInput) (a : StartAttempt) : StartPhase :=
  match givenOperator input.preferredOperator with
  | none => .pickAny a
  | some o => .pickPreferred a o

/-- Where a start goes with its pick. -/
def afterPick (a : StartAttempt) : Option PickedReceiver → StartPhase
  | none => .done (.error (serviceUnavailable "no_receiver" "no healthy receiver available"))
  | some p => .insert a p

/-- A start that is below the cap goes on to the pick. -/
theorem startVerification_pickEntry {v : View} {w : World} {input : StartVerificationInput}
    {a : StartAttempt} (room : (v.db.verifications.countP fun x => x.appId = input.appId ∧
      x.phoneE164 = input.phoneE164 ∧ x.status = .pending) < env.config.maxPendingPerPhone) :
    startVerification env v w input (.countPending a) = some (pickEntry input a, none) := by
  have open' := Nat.not_le.mpr room
  simp only [startVerification, pickEntry, givenOperator]
  rw [if_neg open']
  cases input.preferredOperator with
  | none => rfl
  | some o => cases o <;> rfl

/-- If the rows do not change in between, the statements of the pick lead where `pickReceiver`
says. -/
theorem startVerification_picks {v : View} {w w' : World} {input : StartVerificationInput}
    {a : StartAttempt} : ∃ tie tie',
      let next := afterPick a
        (pickReceiver env v.db input.appId input.preferredOperator a.dbNow tie tie')
      startVerification env v w input (pickEntry input a) = some (next, none) ∨
        startVerification env v w input (pickEntry input a) = some (.pickAny a, none) ∧
          startVerification env v w' input (.pickAny a) = some (next, none) := by
  cases operator : givenOperator input.preferredOperator with
  | none =>
    have entry : pickEntry input a = .pickAny a := by simp only [pickEntry, operator]
    refine ⟨0, w.tie, .inl ?_⟩
    rw [entry]
    simp only [startVerification, pickReceiver, operator]
    rcases givenOperator_eq_none.mp operator with none | empty
    · rw [none]
      cases runHealthyReceiverQuery env v.db input.appId Option.none a.dbNow w.tie <;> rfl
    · rw [empty]
      cases runHealthyReceiverQuery env v.db input.appId Option.none a.dbNow w.tie <;> rfl
  | some o =>
    have entry : pickEntry input a = .pickPreferred a o := by simp only [pickEntry, operator]
    obtain ⟨given, present⟩ := givenOperator_eq_some.mp operator
    refine ⟨w.tie, w'.tie, ?_⟩
    rw [entry]
    simp only [startVerification, pickReceiver, operator]
    cases runHealthyReceiverQuery env v.db input.appId (some o) a.dbNow w.tie with
    | some r => exact .inl rfl
    | none =>
      refine .inr ⟨rfl, ?_⟩
      rw [given]
      cases runHealthyReceiverQuery env v.db input.appId none a.dbNow w'.tie with
      | none => rfl
      | some r => simp [present, afterPick]

/-! ## Routing -/

/-- `pickReceiver` gives nothing exactly if the app has no routable receiver; otherwise it gives
one of the operator wanted, if there is one, with the least load of those it may choose from, and
says truthfully which case it was. -/
theorem receiver_selection (env : Env) (db : Db) (appId : Id) (preferred : Option Text)
    (now : Time) (tie tie' : Nat) :
    (pickReceiver env db appId preferred now tie tie' = none ↔
      ¬∃ r ∈ db.receivers, Routable env appId now r) ∧
    ∀ p, pickReceiver env db appId preferred now tie tie' = some p →
      ∃ r, p = r.picked p.receiverMatch ∧
        PickedWell env db appId (givenOperator preferred) now r p.receiverMatch :=
  ⟨pickReceiver_none, fun _ h => pickReceiver_some h⟩

namespace RoutingScript

def app : Id := newId .app 1

/-- A receiver last heard of at second 100. -/
def receiver (n : Nat) (operator : String) (createdAt : Time) : Receiver :=
  ⟨newId .receiver n, app, some (text operator), text "+963110000000", true, some 100000, createdAt⟩

/-- A pending verification that waits on a receiver. -/
def pending (n receiver : Nat) : Verification where
  id := newId .verification n
  appId := app
  phoneE164 := text "+963991234567"
  purpose := text "login"
  clientRef := none
  locale := none
  receiverId := newId .receiver receiver
  receiverMsisdnSnapshot := none
  receiverOperatorSnapshot := none
  code := text "ABCDEF"
  messagePrefix := text "VERIFY"
  status := .pending
  attempts := 0
  expiresAt := 700000
  verifiedAt := none
  cancelledAt := none
  matchedInboundId := none
  createdIp := none
  createdAt := 100000

/-- Two receivers of one operator, the older one with a pending verification, and a still older one
of another operator, which is not enabled. -/
def fleet : Db :=
  { Db.empty with
    receivers := [receiver 1 "syriatel" 20, receiver 2 "syriatel" 10,
      { receiver 3 "mtn" 5 with enabled := false }]
    verifications := [pending 1 2] }

theorem fleet_picks : pickReceiver .ascii fleet app (some (text "mtn")) 150000 0 0 =
    some ((receiver 1 "syriatel" 20).picked .fallback) := by decide +kernel

end RoutingScript

/-- The operator wanted is not available, and the one of the two others on which nothing waits is
picked. -/
theorem receiver_selection_script : ∃ r, r.operator = some (text "syriatel") ∧
    r.id = newId .receiver 1 ∧
    PickedWell .ascii RoutingScript.fleet RoutingScript.app (some (text "mtn")) 150000 r
      .fallback := by
  obtain ⟨r, same, well⟩ := (receiver_selection .ascii RoutingScript.fleet RoutingScript.app
    (some (text "mtn")) 150000 0 0).2 _ RoutingScript.fleet_picks
  exact ⟨r, (congrArg PickedReceiver.operator same).symm, (congrArg PickedReceiver.id same).symm,
    well⟩

end Syrotp
