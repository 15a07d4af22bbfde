import Mathlib.Algebra.Order.Floor.Ring
import Mathlib.Data.Rat.Floor
import Syrotp.Misc.Grouping
import Syrotp.Server.Schema

/-!
# Abuse signals

`computeSignals` of `services/abuseSignals.ts`: three grouped counts over the last hour, merged into
a row for each app and a row for each receiver, and the score of an app. Counts are exact and rates
are rationals. The refresh timer, its cache and the gauges only hold what is computed here and are
left out.
-/

namespace Syrotp

/-- `WINDOW_INTERVAL`. -/
def windowInterval : String := "1 hour"

def windowIntervalMs : Nat := 60 * 60 * 1000

structure AppHealthRow where
  appId : Id
  totalVerifications : Nat
  failedVerifications : Nat
  failedRate : ℚ
  totalInbounds : Nat
  unmatchedInbounds : Nat
  unmatchedRate : ℚ
  totalBindings : Nat
  expiredBindings : Nat
  bindingFailureRate : ℚ
  healthScore : Int
  deriving DecidableEq, Repr

structure ReceiverHealthRow where
  receiverId : Id
  appId : Id
  totalInbounds : Nat
  unmatchedInbounds : Nat
  unmatchedRate : ℚ
  deriving DecidableEq, Repr

structure AbuseSignals where
  generatedAt : Time
  window : String
  apps : List AppHealthRow
  receivers : List ReceiverHealthRow
  deriving DecidableEq, Repr

/-! ## The score -/

/-- The input of `calcHealthScore`. -/
structure HealthRates where
  failedRate : ℚ
  unmatchedRate : ℚ
  bindingFailureRate : ℚ
  deriving DecidableEq, Repr

/-- `Math.round`: a half goes up. -/
def mathRound (x : ℚ) : Int := ⌊x + 1 / 2⌋

def calcHealthScore (input : HealthRates) : Int :=
  let raw :=
    100
    - input.failedRate * 30
    - input.unmatchedRate * 40
    - input.bindingFailureRate * 10
  max 0 (min 100 (mathRound raw))

/-! ## The three aggregates -/

/-- What a query sees: the committed rows and `now()`. Other calls commit between the queries. -/
structure ReadView where
  db : Db
  now : Time

namespace ReadView

/-- `… > now() - interval '1 hour'`. -/
def recent (s : ReadView) (stamp : Time) : Bool := s.now < stamp + windowIntervalMs

/-- `verifyAgg`: the verifications by app, and those that failed. -/
def verifyAgg (s : ReadView) : List (Tally Id) :=
  tally (·.appId) (fun v => v.status = .failed)
    (s.db.verifications.filter fun v => s.recent v.createdAt)

/-- `inbound_sms i JOIN receivers r ON r.id = i.receiver_id`. -/
def joinReceivers (s : ReadView) : List (InboundSms × Receiver) :=
  s.db.inboundSms.flatMap fun i =>
    (s.db.receivers.filter fun r => r.id = i.receiverId).map fun r => (i, r)

theorem mem_joinReceivers {s : ReadView} {i : InboundSms} {r : Receiver} :
    (i, r) ∈ s.joinReceivers ↔
      i ∈ s.db.inboundSms ∧ r ∈ s.db.receivers ∧ r.id = i.receiverId := by
  simp only [joinReceivers, List.mem_flatMap, List.mem_map, List.mem_filter, decide_eq_true_eq,
    Prod.mk.injEq]
  constructor
  · rintro ⟨i, hi, r, hr, rfl, rfl⟩
    exact ⟨hi, hr⟩
  · rintro ⟨hi, hr⟩
    exact ⟨i, hi, r, hr, rfl, rfl⟩

/-- `inboundAgg`: the messages by app and receiver, and those that matched nothing. -/
def inboundAgg (s : ReadView) : List (Tally (Id × Id)) :=
  tally (fun (i, r) => (r.appId, i.receiverId)) (fun (i, _) => i.matchedVerificationId.isNone)
    (s.joinReceivers.filter fun (i, _) => s.recent i.receivedAt)

/-- `bindingAgg`: the bindings by app, and those that timed out. -/
def bindingAgg (s : ReadView) : List (Tally Id) :=
  tally (·.appId) (fun b => b.status = .pending ∧ b.expiresAt < s.now)
    (s.db.phoneBindings.filter fun b => s.recent b.createdAt)

end ReadView

/-- An answer to a query without `ORDER BY`: its rows, in some order. -/
structure Answer {ρ : Type} (query : List ρ) where
  rows : List ρ
  perm : rows.Perm query

/-! ## The merge -/

/-- The row that `ensure` sets. -/
def AppHealthRow.fresh (appId : Id) : AppHealthRow where
  appId := appId
  totalVerifications := 0
  failedVerifications := 0
  failedRate := 0
  totalInbounds := 0
  unmatchedInbounds := 0
  unmatchedRate := 0
  totalBindings := 0
  expiredBindings := 0
  bindingFailureRate := 0
  healthScore := 100

/-- `for (const v of verifyAgg)`. -/
def verifyLoop : Upsert AppHealthRow Id (Tally Id) where
  column := (·.appId)
  fresh := .fresh
  key v := v.key
  update v r := { r with
    totalVerifications := v.total
    failedVerifications := v.hits
    failedRate := ratio v.hits v.total }
  column_fresh _ := rfl
  column_update _ _ := rfl

/-- `for (const i of inboundAgg)`, as far as it writes to the apps. -/
def inboundLoop : Upsert AppHealthRow Id (Tally (Id × Id)) where
  column := (·.appId)
  fresh := .fresh
  key i := i.key.1
  update i r := { r with
    totalInbounds := r.totalInbounds + i.total
    unmatchedInbounds := r.unmatchedInbounds + i.hits }
  column_fresh _ := rfl
  column_update _ _ := rfl

/-- The row that the same loop pushes. -/
def receiverHealthRow (i : Tally (Id × Id)) : ReceiverHealthRow where
  receiverId := i.key.2
  appId := i.key.1
  totalInbounds := i.total
  unmatchedInbounds := i.hits
  unmatchedRate := ratio i.hits i.total

/-- `for (const b of bindingAgg)`. -/
def bindingLoop : Upsert AppHealthRow Id (Tally Id) where
  column := (·.appId)
  fresh := .fresh
  key b := b.key
  update b r := { r with
    totalBindings := b.total
    expiredBindings := b.hits
    bindingFailureRate := ratio b.hits b.total }
  column_fresh _ := rfl
  column_update _ _ := rfl

namespace AppHealthRow

def setUnmatchedRate (r : AppHealthRow) : AppHealthRow :=
  { r with unmatchedRate := ratio r.unmatchedInbounds r.totalInbounds }

/-- The rates that a row's score is computed from. -/
def rates (r : AppHealthRow) : HealthRates :=
  ⟨r.failedRate, r.unmatchedRate, r.bindingFailureRate⟩

def setHealthScore (r : AppHealthRow) : AppHealthRow :=
  { r with healthScore := calcHealthScore r.rates }

end AppHealthRow

/-- The map `apps` after the last loop. -/
def mergeApps (verifyAgg : List (Tally Id)) (inboundAgg : List (Tally (Id × Id)))
    (bindingAgg : List (Tally Id)) : List AppHealthRow :=
  let apps := verifyLoop.run verifyAgg []
  let apps := inboundLoop.run inboundAgg apps
  -- the rows that only the bindings make come later, with a rate of zero
  let apps := apps.map (·.setUnmatchedRate)
  let apps := bindingLoop.run bindingAgg apps
  apps.map (·.setHealthScore)

/-- `computeSignals`. Each of the three queries has its own snapshot. -/
def computeSignals (localeCompare : Id → Id → Ordering) {first second third : ReadView}
    (verifyAgg : Answer first.verifyAgg) (inboundAgg : Answer second.inboundAgg)
    (bindingAgg : Answer third.bindingAgg) (now : Time) : AbuseSignals where
  generatedAt := now
  window := windowInterval
  apps := (mergeApps verifyAgg.rows inboundAgg.rows bindingAgg.rows).mergeSort
    fun a b => localeCompare a.appId b.appId != .gt
  receivers := (inboundAgg.rows.map receiverHealthRow).mergeSort
    fun a b => localeCompare a.receiverId b.receiverId != .gt

end Syrotp
