import Mathlib.Algebra.BigOperators.Group.List.Basic
import Mathlib.Data.Int.ConditionallyCompleteOrder
import Syrotp.Server.AbuseSignals

/-!
# Abuse signals are consistent aggregates

The loops of `computeSignals` keep the counts of a row and its rates together, in the order in which
they run: what a later loop adds is a fresh row, with counts and rates of zero, and it changes only
the fields of its own aggregate.
-/

namespace Syrotp

open Set

/-! ## The score -/

theorem mathRound_mono {x y : ℚ} (le : x ≤ y) : mathRound x ≤ mathRound y := by
  refine Int.floor_mono ?_
  gcongr

/-- Higher rates, no higher score. -/
theorem calcHealthScore_anti {a b : HealthRates} (failed : a.failedRate ≤ b.failedRate)
    (unmatched : a.unmatchedRate ≤ b.unmatchedRate)
    (binding : a.bindingFailureRate ≤ b.bindingFailureRate) :
    calcHealthScore b ≤ calcHealthScore a := by
  refine max_le_max le_rfl (min_le_min le_rfl (mathRound_mono ?_))
  gcongr

/-- The rates are in the unit interval. -/
structure HealthRates.Unit (rates : HealthRates) : Prop where
  failed : rates.failedRate ∈ Icc 0 1
  unmatched : rates.unmatchedRate ∈ Icc 0 1
  binding : rates.bindingFailureRate ∈ Icc 0 1

/-- The three weights take at most 80 of the 100. -/
theorem calcHealthScore_range {rates : HealthRates} (unit : rates.Unit) :
    20 ≤ calcHealthScore rates ∧ calcHealthScore rates ≤ 100 := by
  have worst : calcHealthScore ⟨1, 1, 1⟩ = 20 := by decide +kernel
  have best : calcHealthScore ⟨0, 0, 0⟩ = 100 := by decide +kernel
  rw [← worst, ← best]
  exact ⟨calcHealthScore_anti unit.failed.2 unit.unmatched.2 unit.binding.2,
    calcHealthScore_anti unit.failed.1 unit.unmatched.1 unit.binding.1⟩

theorem ratio_mem {part whole : Nat} (le : part ≤ whole) : ratio part whole ∈ Icc 0 1 :=
  ⟨ratio_nonneg part whole, ratio_le_one le⟩

/-! ## The rates of a row -/

namespace AppHealthRow

/-- What each loop keeps: parts of wholes, and the two rates that a loop sets with its counts. -/
structure Counted (r : AppHealthRow) : Prop where
  failed_le : r.failedVerifications ≤ r.totalVerifications
  unmatched_le : r.unmatchedInbounds ≤ r.totalInbounds
  expired_le : r.expiredBindings ≤ r.totalBindings
  failedRate : r.failedRate = ratio r.failedVerifications r.totalVerifications
  bindingFailureRate : r.bindingFailureRate = ratio r.expiredBindings r.totalBindings

/-- The rate that is set for all rows at once, between two loops. -/
def UnmatchedRated (r : AppHealthRow) : Prop :=
  r.unmatchedRate = ratio r.unmatchedInbounds r.totalInbounds

theorem counted_fresh (appId : Id) : (fresh appId).Counted :=
  ⟨le_rfl, le_rfl, le_rfl, rfl, rfl⟩

theorem Counted.verify {r : AppHealthRow} (h : r.Counted) (v : Tally Id) :
    (verifyLoop.update v r).Counted :=
  ⟨v.hits_le, h.unmatched_le, h.expired_le, rfl, h.bindingFailureRate⟩

theorem Counted.inbound {r : AppHealthRow} (h : r.Counted) (i : Tally (Id × Id)) :
    (inboundLoop.update i r).Counted :=
  ⟨h.failed_le, Nat.add_le_add h.unmatched_le i.hits_le, h.expired_le, h.failedRate,
    h.bindingFailureRate⟩

theorem Counted.binding {r : AppHealthRow} (h : r.Counted) (b : Tally Id) :
    (bindingLoop.update b r).Counted :=
  ⟨h.failed_le, h.unmatched_le, b.hits_le, h.failedRate, rfl⟩

theorem Counted.unmatchedRate {r : AppHealthRow} (h : r.Counted) : r.setUnmatchedRate.Counted :=
  ⟨h.failed_le, h.unmatched_le, h.expired_le, h.failedRate, h.bindingFailureRate⟩

theorem Counted.unit {r : AppHealthRow} (h : r.Counted) (rated : r.UnmatchedRated) :
    r.rates.Unit where
  failed := by
    have : r.rates.failedRate = r.failedRate := rfl
    rw [this, h.failedRate]
    exact ratio_mem h.failed_le
  unmatched := by
    have : r.rates.unmatchedRate = r.unmatchedRate := rfl
    rw [this, rated]
    exact ratio_mem h.unmatched_le
  binding := by
    have : r.rates.bindingFailureRate = r.bindingFailureRate := rfl
    rw [this, h.bindingFailureRate]
    exact ratio_mem h.expired_le

end AppHealthRow

/-! ## The stages of the merge -/

/-- What the loop over the inbound aggregate adds to the row of an app. -/
def inboundSum (part : Tally (Id × Id) → Nat) (inboundAgg : List (Tally (Id × Id))) (appId : Id) :
    Nat :=
  ((inboundAgg.filter fun i => i.key.1 = appId).map part).sum

/-- The inbound counts of a row are the sums over its app's groups. -/
structure AppHealthRow.Summed (inboundAgg : List (Tally (Id × Id))) (r : AppHealthRow) : Prop where
  total : r.totalInbounds = inboundSum (·.total) inboundAgg r.appId
  unmatched : r.unmatchedInbounds = inboundSum (·.hits) inboundAgg r.appId

theorem inboundSum_of_missing {part : Tally (Id × Id) → Nat} {inboundAgg : List (Tally (Id × Id))}
    {appId : Id} (missing : appId ∉ inboundAgg.map (·.key.1)) :
    inboundSum part inboundAgg appId = 0 := by
  have none : inboundAgg.filter (fun i => i.key.1 = appId) = [] := by
    rw [List.filter_eq_nil_iff]
    intro i there hit
    exact missing (List.mem_map.mpr ⟨i, there, of_decide_eq_true hit⟩)
  rw [inboundSum, none]
  rfl

theorem foldl_inbound (groups : List (Tally (Id × Id))) (r : AppHealthRow) :
    (groups.foldl (fun r i => inboundLoop.update i r) r).totalInbounds =
        r.totalInbounds + (groups.map (·.total)).sum ∧
      (groups.foldl (fun r i => inboundLoop.update i r) r).unmatchedInbounds =
        r.unmatchedInbounds + (groups.map (·.hits)).sum := by
  induction groups generalizing r with
  | nil => exact ⟨rfl, rfl⟩
  | cons i groups ih =>
    obtain ⟨total, unmatched⟩ := ih (inboundLoop.update i r)
    refine ⟨total.trans ?_, unmatched.trans ?_⟩
    · rw [List.map_cons, List.sum_cons, ← Nat.add_assoc]
      rfl
    · rw [List.map_cons, List.sum_cons, ← Nat.add_assoc]
      rfl

section

variable {verifyAgg bindingAgg : List (Tally Id)} {inboundAgg : List (Tally (Id × Id))}

/-- The rows after the loop over the inbound aggregate. -/
theorem counted_inbound :
    ∀ r ∈ inboundLoop.run inboundAgg (verifyLoop.run verifyAgg []), r.Counted := by
  refine Upsert.forall_run ?_ (fun k _ => AppHealthRow.counted_fresh k) fun i r h => h.inbound i
  exact Upsert.forall_run (List.forall_mem_nil _) (fun k _ => AppHealthRow.counted_fresh k)
    fun v r h => h.verify v

theorem summed_inbound :
    ∀ r ∈ inboundLoop.run inboundAgg (verifyLoop.run verifyAgg []), r.Summed inboundAgg := by
  -- the loop over the verifications counts no messages
  have zero : ∀ r ∈ verifyLoop.run verifyAgg [], r.totalInbounds = 0 ∧ r.unmatchedInbounds = 0 :=
    Upsert.forall_run (List.forall_mem_nil _) (fun k _ => ⟨rfl, rfl⟩) fun v r h => h
  intro r there
  obtain ⟨before, starts, eq⟩ := Upsert.mem_run there
  have none : before.totalInbounds = 0 ∧ before.unmatchedInbounds = 0 := by
    rcases starts with ⟨old, -⟩ | ⟨-, rfl⟩
    · exact zero before old
    · exact ⟨rfl, rfl⟩
  obtain ⟨total, unmatched⟩ :=
    foldl_inbound (inboundAgg.filter fun i => inboundLoop.key i = inboundLoop.column r) before
  rw [← eq, none.1, Nat.zero_add] at total
  rw [← eq, none.2, Nat.zero_add] at unmatched
  exact ⟨total, unmatched⟩

theorem map_appId_inbound {k : Id} :
    k ∈ (inboundLoop.run inboundAgg (verifyLoop.run verifyAgg [])).map (·.appId) ↔
      k ∈ verifyAgg.map (·.key) ∨ k ∈ inboundAgg.map (·.key.1) := by
  refine (Upsert.mem_map_run (u := inboundLoop)).trans (or_congr_left ?_)
  refine (Upsert.mem_map_run (u := verifyLoop)).trans ?_
  rw [List.map_nil, or_iff_right List.not_mem_nil]
  rfl

/-- What holds of every row before the scores: a row that the bindings add has no messages, and its
app has none either. -/
structure AppHealthRow.Merged (inboundAgg : List (Tally (Id × Id))) (r : AppHealthRow) : Prop where
  counted : r.Counted
  rated : r.UnmatchedRated
  summed : r.Summed inboundAgg

theorem merged_binding : ∀ r ∈ bindingLoop.run bindingAgg
    ((inboundLoop.run inboundAgg (verifyLoop.run verifyAgg [])).map (·.setUnmatchedRate)),
    r.Merged inboundAgg := by
  refine Upsert.forall_run ?_ ?_ fun b r h => ⟨h.counted.binding b, h.rated, ?_⟩
  · intro r there
    obtain ⟨before, was, rfl⟩ := List.mem_map.mp there
    obtain ⟨total, unmatched⟩ := summed_inbound before was
    exact ⟨(counted_inbound before was).unmatchedRate, rfl, ⟨total, unmatched⟩⟩
  · intro k new
    have missing : k ∉ inboundAgg.map (·.key.1) := by
      intro there
      refine new ?_
      rw [List.map_map]
      exact map_appId_inbound.mpr (.inr there)
    exact ⟨AppHealthRow.counted_fresh k, rfl, (inboundSum_of_missing missing).symm,
      (inboundSum_of_missing missing).symm⟩
  · exact ⟨h.summed.total, h.summed.unmatched⟩

/-- The rows of the answer. -/
theorem mem_mergeApps {r : AppHealthRow} (h : r ∈ mergeApps verifyAgg inboundAgg bindingAgg) :
    r.Merged inboundAgg ∧ r.healthScore = calcHealthScore r.rates := by
  obtain ⟨before, there, rfl⟩ := List.mem_map.mp h
  obtain ⟨counted, rated, summed⟩ := merged_binding before there
  refine ⟨⟨?_, rated, ⟨summed.total, summed.unmatched⟩⟩, rfl⟩
  exact ⟨counted.failed_le, counted.unmatched_le, counted.expired_le, counted.failedRate,
    counted.bindingFailureRate⟩

theorem map_appId_mergeApps : (mergeApps verifyAgg inboundAgg bindingAgg).map (·.appId) =
    (bindingLoop.run bindingAgg ((inboundLoop.run inboundAgg (verifyLoop.run verifyAgg [])).map
      (·.setUnmatchedRate))).map (·.appId) := by
  rw [mergeApps, List.map_map]
  rfl

theorem mem_appId_mergeApps {k : Id} :
    k ∈ (mergeApps verifyAgg inboundAgg bindingAgg).map (·.appId) ↔
      k ∈ verifyAgg.map (·.key) ∨ k ∈ inboundAgg.map (·.key.1) ∨ k ∈ bindingAgg.map (·.key) := by
  rw [map_appId_mergeApps, ← or_assoc]
  refine (Upsert.mem_map_run (u := bindingLoop)).trans (or_congr_left ?_)
  rw [List.map_map]
  exact map_appId_inbound

theorem nodup_appId_mergeApps :
    ((mergeApps verifyAgg inboundAgg bindingAgg).map (·.appId)).Nodup := by
  rw [map_appId_mergeApps]
  refine Upsert.nodup_run (u := bindingLoop) ?_
  rw [List.map_map]
  refine Upsert.nodup_run (u := inboundLoop) ?_
  exact Upsert.nodup_run (u := verifyLoop) List.nodup_nil

end

/-! ## The answer -/

namespace AbuseSignals

/-- The receiver rows of an app. -/
def receiversOf (signals : AbuseSignals) (appId : Id) : List ReceiverHealthRow :=
  signals.receivers.filter fun r => r.appId = appId

/-- The messages of the last hour to a receiver of an app, each beside the row of the receiver. -/
def received (s : ReadView) (appId receiverId : Id) : List (InboundSms × Receiver) :=
  (s.db.inboundSms ×ˢ s.db.receivers).filter fun (i, r) =>
    r.id = i.receiverId ∧ r.id = receiverId ∧ r.appId = appId ∧ s.now < i.receivedAt + 60 * 60 * 1000

/-- The app has a verification, a message to one of its receivers or a binding of the last hour. -/
def Occurs (first second third : ReadView) (appId : Id) : Prop :=
  (∃ v ∈ first.db.verifications, first.now < v.createdAt + 60 * 60 * 1000 ∧ v.appId = appId) ∨
  (∃ i ∈ second.db.inboundSms, ∃ r ∈ second.db.receivers, r.id = i.receiverId ∧
    second.now < i.receivedAt + 60 * 60 * 1000 ∧ r.appId = appId) ∨
  ∃ b ∈ third.db.phoneBindings, third.now < b.createdAt + 60 * 60 * 1000 ∧ b.appId = appId

/-- The signals are consistent: with each other, and with the rows that the three queries see. -/
structure Consistent (signals : AbuseSignals) (first second third : ReadView) : Prop where
  totalInbounds : ∀ app ∈ signals.apps,
    app.totalInbounds = ((signals.receiversOf app.appId).map (·.totalInbounds)).sum
  unmatchedInbounds : ∀ app ∈ signals.apps,
    app.unmatchedInbounds = ((signals.receiversOf app.appId).map (·.unmatchedInbounds)).sum
  failedRate : ∀ app ∈ signals.apps, app.failedRate ∈ Icc 0 1
  unmatchedRate : ∀ app ∈ signals.apps, app.unmatchedRate ∈ Icc 0 1
  bindingFailureRate : ∀ app ∈ signals.apps, app.bindingFailureRate ∈ Icc 0 1
  receiverRate : ∀ receiver ∈ signals.receivers, receiver.unmatchedRate ∈ Icc 0 1
  receiverTotal : ∀ receiver ∈ signals.receivers, receiver.totalInbounds =
    (received second receiver.appId receiver.receiverId).length
  receiverUnmatched : ∀ receiver ∈ signals.receivers, receiver.unmatchedInbounds =
    (received second receiver.appId receiver.receiverId).countP (·.1.matchedVerificationId = none)
  receiverOnce : (signals.receivers.map fun r => (r.appId, r.receiverId)).Nodup
  receiverListed : ∀ appId receiverId,
    (appId, receiverId) ∈ signals.receivers.map (fun r => (r.appId, r.receiverId)) ↔
      received second appId receiverId ≠ []
  score : ∀ app ∈ signals.apps, app.healthScore = calcHealthScore app.rates
  scoreRange : ∀ app ∈ signals.apps, 20 ≤ app.healthScore ∧ app.healthScore ≤ 100
  once : (signals.apps.map (·.appId)).Nodup
  listed : ∀ appId, appId ∈ signals.apps.map (·.appId) ↔ Occurs first second third appId

end AbuseSignals

section

variable {localeCompare : Id → Id → Ordering} {first second third : ReadView}
  {verifyAgg : Answer first.verifyAgg} {inboundAgg : Answer second.inboundAgg}
  {bindingAgg : Answer third.bindingAgg} {now : Time}

/-- Sorting the receivers changes no sum. -/
theorem sum_receiversOf (part : ReceiverHealthRow → Nat) (appId : Id) :
    (((computeSignals localeCompare verifyAgg inboundAgg bindingAgg now).receiversOf appId).map
      part).sum = inboundSum (part ∘ receiverHealthRow) inboundAgg.rows appId := by
  have sorted := List.mergeSort_perm (inboundAgg.rows.map receiverHealthRow)
    fun a b => localeCompare a.receiverId b.receiverId != .gt
  refine ((sorted.filter _).map part).sum_eq.trans ?_
  rw [List.filter_map, List.map_map]
  rfl

theorem map_appId_apps :
    ((computeSignals localeCompare verifyAgg inboundAgg bindingAgg now).apps.map (·.appId)).Perm
      ((mergeApps verifyAgg.rows inboundAgg.rows bindingAgg.rows).map (·.appId)) :=
  (List.mergeSort_perm _ _).map _

theorem mem_appId_apps {appId : Id} :
    appId ∈ (computeSignals localeCompare verifyAgg inboundAgg bindingAgg now).apps.map (·.appId) ↔
      appId ∈ first.verifyAgg.map (·.key) ∨ appId ∈ second.inboundAgg.map (·.key.1) ∨
        appId ∈ third.bindingAgg.map (·.key) := by
  rw [map_appId_apps.mem_iff, mem_appId_mergeApps, (verifyAgg.perm.map _).mem_iff,
    (inboundAgg.perm.map _).mem_iff, (bindingAgg.perm.map _).mem_iff]

theorem recent_iff {s : ReadView} {stamp : Time} :
    s.recent stamp = true ↔ s.now < stamp + 60 * 60 * 1000 := decide_eq_true_iff

/-- In terms of the tables: an app is listed for a verification, a message to one of its receivers
or a binding, of the last hour. -/
theorem mem_appId_apps_iff_occurs {appId : Id} :
    appId ∈ (computeSignals localeCompare verifyAgg inboundAgg bindingAgg now).apps.map (·.appId) ↔
      AbuseSignals.Occurs first second third appId := by
  rw [mem_appId_apps]
  refine or_congr ?_ (or_congr ?_ ?_)
  · rw [ReadView.verifyAgg, mem_key_tally]
    simp only [List.mem_filter, and_assoc, recent_iff]
  · have keys : second.inboundAgg.map (·.key.1) =
        (second.inboundAgg.map (·.key)).map (·.1) := by
      rw [List.map_map]
      rfl
    rw [keys, List.mem_map]
    constructor
    · rintro ⟨k, there, rfl⟩
      obtain ⟨⟨i, r⟩, row, rfl⟩ := mem_key_tally.mp there
      obtain ⟨joined, recent⟩ := List.mem_filter.mp row
      obtain ⟨hi, hr, same⟩ := ReadView.mem_joinReceivers.mp joined
      exact ⟨i, hi, r, hr, same, recent_iff.mp recent, rfl⟩
    · rintro ⟨i, hi, r, hr, same, recent, rfl⟩
      have joined := ReadView.mem_joinReceivers.mpr ⟨hi, hr, same⟩
      have row : (i, r) ∈ second.joinReceivers.filter fun e => second.recent e.1.receivedAt :=
        List.mem_filter.mpr ⟨joined, recent_iff.mpr recent⟩
      exact ⟨(r.appId, i.receiverId), mem_key_tally.mpr ⟨(i, r), row, rfl⟩, rfl⟩
  · rw [ReadView.bindingAgg, mem_key_tally]
    simp only [List.mem_filter, and_assoc, recent_iff]

theorem map_key_receivers : ((computeSignals localeCompare verifyAgg inboundAgg bindingAgg
    now).receivers.map fun r => (r.appId, r.receiverId)).Perm (second.inboundAgg.map (·.key)) := by
  refine ((List.mergeSort_perm _ _).map _).trans ?_
  rw [List.map_map]
  exact inboundAgg.perm.map _

/-- A receiver has one row for its app. -/
theorem nodup_receivers : ((computeSignals localeCompare verifyAgg inboundAgg bindingAgg
    now).receivers.map fun r => (r.appId, r.receiverId)).Nodup :=
  map_key_receivers.nodup_iff.mpr nodup_key_tally

/-- It has one if it has had a message in the last hour, and not otherwise. -/
theorem mem_receivers_iff_received {appId receiverId : Id} :
    (appId, receiverId) ∈ (computeSignals localeCompare verifyAgg inboundAgg bindingAgg
        now).receivers.map (fun r => (r.appId, r.receiverId)) ↔
      AbuseSignals.received second appId receiverId ≠ [] := by
  rw [map_key_receivers.mem_iff, ReadView.inboundAgg, mem_key_tally]
  constructor
  · rintro ⟨⟨i, r⟩, row, same⟩
    obtain ⟨joined, recent⟩ := List.mem_filter.mp row
    obtain ⟨hi, hr, id⟩ := ReadView.mem_joinReceivers.mp joined
    obtain ⟨app, receiver⟩ := Prod.mk.inj same
    exact List.ne_nil_of_mem (List.mem_filter.mpr ⟨List.mem_product.mpr ⟨hi, hr⟩,
      decide_eq_true ⟨id, id.trans receiver, app, recent_iff.mp recent⟩⟩)
  · intro filled
    obtain ⟨⟨i, r⟩, there⟩ := List.exists_mem_of_ne_nil _ filled
    obtain ⟨pair, wanted⟩ := List.mem_filter.mp there
    obtain ⟨hi, hr⟩ := List.mem_product.mp pair
    obtain ⟨id, receiver, app, recent⟩ := of_decide_eq_true wanted
    exact ⟨(i, r), List.mem_filter.mpr ⟨ReadView.mem_joinReceivers.mpr ⟨hi, hr, id⟩,
      recent_iff.mpr recent⟩, Prod.ext app (id.symm.trans receiver)⟩

/-- The join, as a selection of the pairs of a message and a receiver. -/
theorem joinReceivers_eq {s : ReadView} : s.joinReceivers =
    (s.db.inboundSms ×ˢ s.db.receivers).filter fun (i, r) => r.id = i.receiverId := by
  change _ = (List.flatMap _ _).filter _
  rw [List.filter_flatMap]
  simp only [ReadView.joinReceivers, List.filter_map, Function.comp_def]

/-- The row of a receiver counts the messages to it. -/
theorem receiver_counts {receiver : ReceiverHealthRow}
    (h : receiver ∈ (computeSignals localeCompare verifyAgg inboundAgg bindingAgg now).receivers) :
    receiver.totalInbounds =
        (AbuseSignals.received second receiver.appId receiver.receiverId).length ∧
      receiver.unmatchedInbounds = (AbuseSignals.received second receiver.appId
        receiver.receiverId).countP (·.1.matchedVerificationId = none) := by
  obtain ⟨i, there, rfl⟩ := List.mem_map.mp ((List.mergeSort_perm _ _).mem_iff.mp h)
  obtain ⟨total, unmatched⟩ := mem_tally (inboundAgg.perm.mem_iff.mp there)
  have group : AbuseSignals.received second i.key.1 i.key.2 =
      (second.joinReceivers.filter fun (i, _) => second.recent i.receivedAt).filter
        fun (m, r) => (r.appId, m.receiverId) = i.key := by
    rw [joinReceivers_eq, List.filter_filter, List.filter_filter, AbuseSignals.received]
    refine List.filter_congr fun (m, r) _ => ?_
    rw [Bool.eq_iff_iff]
    simp only [decide_eq_true_eq, Bool.and_eq_true, recent_iff, Prod.ext_iff]
    constructor
    · rintro ⟨joined, receiver, app, recent⟩
      exact ⟨⟨⟨app, joined.symm.trans receiver⟩, recent⟩, joined⟩
    · rintro ⟨⟨⟨app, receiver⟩, recent⟩, joined⟩
      exact ⟨joined, joined.trans receiver, app, recent⟩
  refine ⟨total.trans (congrArg List.length group).symm, unmatched.trans ?_⟩
  refine (congrArg (List.countP _) group.symm).trans (List.countP_congr fun m _ => ?_)
  simp

theorem receiver_unmatchedRate_mem {receiver : ReceiverHealthRow}
    (h : receiver ∈ (computeSignals localeCompare verifyAgg inboundAgg bindingAgg now).receivers) :
    receiver.unmatchedRate ∈ Icc 0 1 := by
  obtain ⟨i, -, rfl⟩ := List.mem_map.mp ((List.mergeSort_perm _ _).mem_iff.mp h)
  exact ratio_mem i.hits_le

theorem app_merged {app : AppHealthRow}
    (h : app ∈ (computeSignals localeCompare verifyAgg inboundAgg bindingAgg now).apps) :
    app.Merged inboundAgg.rows ∧ app.healthScore = calcHealthScore app.rates :=
  mem_mergeApps ((List.mergeSort_perm _ _).mem_iff.mp h)

theorem app_rates_unit {app : AppHealthRow}
    (h : app ∈ (computeSignals localeCompare verifyAgg inboundAgg bindingAgg now).apps) :
    app.rates.Unit := by
  obtain ⟨row, -⟩ := app_merged h
  exact row.counted.unit row.rated

variable (localeCompare verifyAgg inboundAgg bindingAgg now) in
/-- The inbound counts of an app are the sums over its receivers, which have one row if a message
came to them in the last hour and count those that did; rates are in the unit interval, a score is
what `calcHealthScore` makes of the rates of its row, between 20 and 100 and no higher for a higher
rate; and an app is listed once if it has a verification, a message or a binding of the last hour,
and not otherwise. -/
theorem computeSignals_consistent :
    (computeSignals localeCompare verifyAgg inboundAgg bindingAgg now).Consistent first second
      third ∧
    ∀ rates : HealthRates,
      Antitone (fun rate => calcHealthScore { rates with failedRate := rate }) ∧
      Antitone (fun rate => calcHealthScore { rates with unmatchedRate := rate }) ∧
      Antitone (fun rate => calcHealthScore { rates with bindingFailureRate := rate }) := by
  constructor
  · constructor
    case totalInbounds =>
      intro app there
      exact (app_merged there).1.summed.total.trans (sum_receiversOf (·.totalInbounds) _).symm
    case unmatchedInbounds =>
      intro app there
      exact (app_merged there).1.summed.unmatched.trans
        (sum_receiversOf (·.unmatchedInbounds) _).symm
    case failedRate => exact fun app there => (app_rates_unit there).failed
    case unmatchedRate => exact fun app there => (app_rates_unit there).unmatched
    case bindingFailureRate => exact fun app there => (app_rates_unit there).binding
    case receiverRate => exact fun receiver there => receiver_unmatchedRate_mem there
    case receiverTotal => exact fun receiver there => (receiver_counts there).1
    case receiverUnmatched => exact fun receiver there => (receiver_counts there).2
    case receiverOnce => exact nodup_receivers
    case receiverListed => exact fun appId receiverId => mem_receivers_iff_received
    case score => exact fun app there => (app_merged there).2
    case scoreRange =>
      intro app there
      rw [(app_merged there).2]
      exact calcHealthScore_range (app_rates_unit there)
    case once => exact map_appId_apps.nodup_iff.mpr nodup_appId_mergeApps
    case listed => exact fun appId => mem_appId_apps_iff_occurs
  · intro rates
    refine ⟨fun a b le => ?_, fun a b le => ?_, fun a b le => ?_⟩
    · exact calcHealthScore_anti le le_rfl le_rfl
    · exact calcHealthScore_anti le_rfl le le_rfl
    · exact calcHealthScore_anti le_rfl le_rfl le

end

namespace SignalsScript

def app (n : Nat) : Id := newId .app n

/-- A message that came at a second. -/
def message (n receiver : Nat) (matched : Option Id) (seconds : Nat) : InboundSms :=
  ⟨newId .inbound n, newId .receiver receiver, text "+963991234567", text "+963110000000",
    text "VERIFY AAAAAA", seconds * 1000, text "key", matched, seconds * 1000⟩

/-- A binding that was drafted at a second and has not been answered. -/
def binding (n : Nat) (seconds : Nat) : PhoneBinding where
  id := newId .phoneBinding n
  appId := app n
  receiverId := newId .receiver 1
  phoneE164 := text "+963991234567"
  status := .pending
  nonce := text "A"
  expiresAt := (seconds + 600) * 1000
  boundAt := none
  revokedAt := none
  createdAt := seconds * 1000

/-- At second 4000: two messages to the receiver of app 1, one of them matched, a binding of app 2,
and a binding of app 3 that is more than an hour old. -/
def view : ReadView where
  db := { Db.empty with
    receivers := [⟨newId .receiver 1, app 1, none, text "+963110000000", true, none, 0⟩]
    inboundSms := [message 1 1 none 3000, message 2 1 (some (newId .verification 1)) 3500]
    phoneBindings := [binding 2 3000, binding 3 100] }
  now := 4000 * 1000

def signals : AbuseSignals :=
  computeSignals (fun a b => compare a.ulid b.ulid) ⟨view.verifyAgg, .refl _⟩
    ⟨view.inboundAgg, .refl _⟩ ⟨view.bindingAgg, .refl _⟩ view.now

end SignalsScript

open SignalsScript in
/-- App 2 is listed for its binding, app 3 is not, and the row of app 1 counts two messages. -/
theorem computeSignals_consistent_script : app 2 ∈ signals.apps.map (·.appId) ∧
    app 3 ∉ signals.apps.map (·.appId) ∧
    (app 1, newId .receiver 1) ∈ signals.receivers.map (fun r => (r.appId, r.receiverId)) ∧
    ∀ receiver ∈ signals.receivers, receiver.appId = app 1 →
      receiver.receiverId = newId .receiver 1 →
        receiver.totalInbounds = 2 ∧ receiver.unmatchedInbounds = 1 := by
  obtain ⟨consistent, -⟩ := computeSignals_consistent (fun a b => compare a.ulid b.ulid)
    ⟨view.verifyAgg, .refl _⟩ ⟨view.inboundAgg, .refl _⟩ ⟨view.bindingAgg, .refl _⟩ view.now
  have counts : (AbuseSignals.received view (app 1) (newId .receiver 1)).length = 2 ∧
      (AbuseSignals.received view (app 1) (newId .receiver 1)).countP
        (·.1.matchedVerificationId = none) = 1 := by
    decide +kernel
  have received : AbuseSignals.received view (app 1) (newId .receiver 1) ≠ [] :=
    List.ne_nil_of_length_pos (counts.1 ▸ Nat.two_pos)
  refine ⟨(consistent.listed _).mpr ?_, fun there => ?_,
    (consistent.receiverListed _ _).mpr received, fun receiver there of at1 => ?_⟩
  · exact .inr (.inr ⟨binding 2 3000, by simp [view], by decide, rfl⟩)
  · revert there
    rw [signals, consistent.listed]
    have other : app 1 ≠ app 3 ∧ app 2 ≠ app 3 := by decide
    simpa [AbuseSignals.Occurs, view, binding, message, Db.empty] using other
  · have total := consistent.receiverTotal receiver there
    have unmatched := consistent.receiverUnmatched receiver there
    rw [of, at1] at total unmatched
    exact ⟨total.trans counts.1, unmatched.trans counts.2⟩

end Syrotp
