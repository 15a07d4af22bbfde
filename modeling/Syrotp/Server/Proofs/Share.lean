import Syrotp.Server.Proofs.Reachable

/-!
# The rows of an app

`share` takes the rows of one app out of every table, or all the others. A received message belongs
to the app of its receiver and a delivery to that of its endpoint. What an app writes is written in
its own share, and leaves the other one alone.
-/

namespace Syrotp

/-- The app has a receiver with this id. -/
def Db.owns (db : Db) (appId receiverId : Id) : Bool :=
  db.receivers.any fun r => r.id = receiverId ∧ r.appId = appId

/-- The app has an endpoint with this id. -/
def Db.ownsEndpoint (db : Db) (appId endpointId : Id) : Bool :=
  db.webhookEndpoints.any fun e => e.id = endpointId ∧ e.appId = appId

/-- The rows of app `A`, or those that are not its. -/
def Db.share (db : Db) (A : Id) (mine : Bool) : Db where
  receivers := db.receivers.filter fun r => decide (r.appId = A) == mine
  phoneBindings := db.phoneBindings.filter fun b => decide (b.appId = A) == mine
  verifications := db.verifications.filter fun v => decide (v.appId = A) == mine
  inboundSms := db.inboundSms.filter fun m => db.owns A m.receiverId == mine
  webhookEndpoints := db.webhookEndpoints.filter fun e => decide (e.appId = A) == mine
  webhookEvents := db.webhookEvents.filter fun e => decide (e.appId = A) == mine
  webhookDeliveries := db.webhookDeliveries.filter fun d =>
    db.ownsEndpoint A d.endpointId == mine

def WebauthnDb.share (db : WebauthnDb) (A : Id) (mine : Bool) : WebauthnDb where
  credentials := db.credentials.filter fun c => decide (c.appId = A) == mine
  challenges := db.challenges.filter fun c => decide (c.appId = A) == mine

def Database.share (d : Database) (A : Id) (mine : Bool) : Database :=
  ⟨d.core.share A mine, d.webauthn.share A mine⟩

/-- What makes a write one of app `A`. -/
def Write.Of (A : Id) (db : Db) : Write → Prop
  | .insertVerification row => row.appId = A
  | .resolveVerification row event deliveries inbound => row.appId = A ∧ event.appId = A ∧
      (∀ v ∈ db.verifications, v.id = row.id → v.appId = A) ∧
      (∀ d ∈ deliveries, db.ownsEndpoint A d.endpointId = true) ∧
      ∀ i, inbound = some i → ∀ m ∈ db.inboundSms, m.id = i → db.owns A m.receiverId = true
  | .insertInbound row => db.owns A row.receiverId = true
  | .setMatched i _ => ∀ m ∈ db.inboundSms, m.id = i → db.owns A m.receiverId = true
  | .insertBinding row => row.appId = A
  | .verifyBindings ids _ => ∀ b ∈ db.phoneBindings, b.id ∈ ids → b.appId = A
  | .revokeBinding appId _ _ => appId = A
  | .putReceiver _ => False
  | .insertEndpoint row => row.appId = A ∧
      ∀ d ∈ db.webhookDeliveries, d.endpointId = row.id → db.ownsEndpoint A d.endpointId = true
  | .deleteEndpoint appId _ => appId = A

def WebauthnWrite.Of (A : Id) (db : WebauthnDb) : WebauthnWrite → Prop
  | .insertChallenge row => row.appId = A
  | .useChallenge id _ => ∀ c ∈ db.challenges, c.id = id → c.appId = A
  | .insertCredential row => row.appId = A
  | .updateCredential id _ _ => ∀ c ∈ db.credentials, c.id = id → c.appId = A

section

variable {A : Id} {db : Db}

theorem Db.eq_of_tables {a b : Db} (receivers : a.receivers = b.receivers)
    (bindings : a.phoneBindings = b.phoneBindings)
    (verifications : a.verifications = b.verifications) (inbound : a.inboundSms = b.inboundSms)
    (endpoints : a.webhookEndpoints = b.webhookEndpoints)
    (events : a.webhookEvents = b.webhookEvents)
    (deliveries : a.webhookDeliveries = b.webhookDeliveries) : a = b := by
  cases a
  cases b
  cases receivers
  cases bindings
  cases verifications
  cases inbound
  cases endpoints
  cases events
  cases deliveries
  rfl

/-- An app's own rows are in its share and not in the other one. -/
theorem inShare {α : Type*} {owner : α → Id} {r : α} (h : owner r = A) :
    (decide (owner r = A) == true) = true ∧ (decide (owner r = A) == false) = false := by
  simp [h]

/-- A write of an app is a write in its share, and the rest stays as it is. -/
theorem WebauthnDb.share_commit {db : WebauthnDb} {w : WebauthnWrite} (h : w.Of A db) :
    (db.commit w).share A true = (db.share A true).commit w ∧
      (db.commit w).share A false = db.share A false := by
  cases w with
  | insertChallenge row =>
    have mine : row.appId = A := h
    simp [WebauthnDb.commit, WebauthnDb.share, mine]
  | insertCredential row =>
    have mine : row.appId = A := h
    simp [WebauthnDb.commit, WebauthnDb.share, mine]
  | useChallenge id t =>
    have apart : ∀ c ∈ db.challenges, decide (c.id = id) = true →
        (decide (c.appId = A) == false) = false := by
      intro c hc hit
      exact (inShare (h c hc (of_decide_eq_true hit))).2
    simp only [WebauthnDb.commit, WebauthnDb.share, WebauthnDb.mk.injEq, true_and]
    exact ⟨filter_updateWhere_part fun _ _ _ => rfl,
      filter_updateWhere_apart (fun _ _ _ => rfl) apart⟩
  | updateCredential id n t =>
    have apart : ∀ c ∈ db.credentials, decide (c.id = id) = true →
        (decide (c.appId = A) == false) = false := by
      intro c hc hit
      exact (inShare (h c hc (of_decide_eq_true hit))).2
    simp only [WebauthnDb.commit, WebauthnDb.share, WebauthnDb.mk.injEq, and_true]
    exact ⟨filter_updateWhere_part fun _ _ _ => rfl,
      filter_updateWhere_apart (fun _ _ _ => rfl) apart⟩

theorem share_insertEndpoint {row : WebhookEndpoint} (mine : row.appId = A)
    (named : ∀ d ∈ db.webhookDeliveries, d.endpointId = row.id →
      db.ownsEndpoint A d.endpointId = true) :
    (db.commit (.insertEndpoint row)).share A true =
        (db.share A true).commit (.insertEndpoint row) ∧
      (db.commit (.insertEndpoint row)).share A false = db.share A false := by
  have owner : ∀ d ∈ db.webhookDeliveries,
      (db.commit (.insertEndpoint row)).ownsEndpoint A d.endpointId =
        db.ownsEndpoint A d.endpointId := by
    intro d hd
    simp only [Db.commit, Db.ownsEndpoint, List.any_append, List.any_cons, List.any_nil, mine,
      Bool.or_false, and_true]
    by_cases names : row.id = d.endpointId
    · have owned := named d hd names.symm
      unfold Db.ownsEndpoint at owned
      rw [owned, Bool.true_or]
    · rw [decide_eq_false names, Bool.or_false]
  have deliveries : ∀ side, db.webhookDeliveries.filter
      (fun d => (db.commit (.insertEndpoint row)).ownsEndpoint A d.endpointId == side) =
        db.webhookDeliveries.filter fun d => db.ownsEndpoint A d.endpointId == side :=
    fun side => List.filter_congr fun d hd => congrArg (· == side) (owner d hd)
  constructor
  · simp only [Db.share, show (db.commit (.insertEndpoint row)).webhookDeliveries =
      db.webhookDeliveries from rfl, deliveries]
    simp [Db.commit, Db.owns, mine]
  · simp only [Db.share, show (db.commit (.insertEndpoint row)).webhookDeliveries =
      db.webhookDeliveries from rfl, deliveries]
    simp [Db.commit, Db.owns, mine]

/-- A deleted endpoint takes its deliveries along, and they are those of its app. -/
theorem share_deleteEndpoint {id : Id} :
    (db.commit (.deleteEndpoint A id)).share A true =
        (db.share A true).commit (.deleteEndpoint A id) ∧
      (db.commit (.deleteEndpoint A id)).share A false = db.share A false := by
  have owner : ∀ d : WebhookDelivery,
      (¬∃ e ∈ db.webhookEndpoints, (e.appId = A ∧ e.id = id) ∧ d.endpointId = e.id) →
        (db.commit (.deleteEndpoint A id)).ownsEndpoint A d.endpointId =
          db.ownsEndpoint A d.endpointId := by
    intro d survives
    unfold Db.ownsEndpoint
    refine any_part fun e he hit => ?_
    obtain ⟨names, app⟩ := of_decide_eq_true hit
    exact decide_eq_true fun gone => survives ⟨e, he, gone, names.symm⟩
  have owned : ∀ d : WebhookDelivery,
      (∃ e ∈ db.webhookEndpoints, (e.appId = A ∧ e.id = id) ∧ d.endpointId = e.id) →
        db.ownsEndpoint A d.endpointId = true := by
    rintro d ⟨e, he, ⟨app, _⟩, names⟩
    exact List.any_eq_true.mpr ⟨e, he, decide_eq_true ⟨names.symm, app⟩⟩
  have endpoints : ∀ side, (db.webhookEndpoints.filter fun e => ¬(e.appId = A ∧ e.id = id)).filter
      (fun e => decide (e.appId = A) == side) =
        (db.webhookEndpoints.filter fun e => decide (e.appId = A) == side).filter
          fun e => ¬(e.appId = A ∧ e.id = id) := by
    intro side
    rw [List.filter_filter, List.filter_filter]
    exact List.filter_congr fun e _ => Bool.and_comm ..
  constructor
  · refine Db.eq_of_tables rfl rfl rfl rfl (endpoints true) rfl ?_
    have gone : ∀ d : WebhookDelivery,
        (∃ e ∈ (db.share A true).webhookEndpoints, (e.appId = A ∧ e.id = id) ∧
          d.endpointId = e.id) ↔
        ∃ e ∈ db.webhookEndpoints, (e.appId = A ∧ e.id = id) ∧ d.endpointId = e.id := by
      intro d
      constructor
      · rintro ⟨e, he, hit⟩
        exact ⟨e, (List.mem_filter.mp he).1, hit⟩
      · rintro ⟨e, he, hit⟩
        exact ⟨e, List.mem_filter.mpr ⟨he, (inShare hit.1.1).1⟩, hit⟩
    refine (List.filter_filter).trans (Eq.trans ?_ (List.filter_filter).symm)
    refine List.filter_congr fun d _ => ?_
    by_cases survives : ∃ e ∈ db.webhookEndpoints, (e.appId = A ∧ e.id = id) ∧ d.endpointId = e.id
    · simp [gone, survives]
    · rw [owner d survives]
      simp only [gone, Bool.and_comm]
  · refine Db.eq_of_tables rfl rfl rfl rfl ((endpoints false).trans ?_) rfl ?_
    · refine List.filter_eq_self.mpr fun e he => ?_
      have foreign : e.appId ≠ A := by simpa using (List.mem_filter.mp he).2
      exact decide_eq_true fun gone => foreign gone.1
    · refine (List.filter_filter).trans (List.filter_congr fun d _ => ?_)
      by_cases survives : ∃ e ∈ db.webhookEndpoints, (e.appId = A ∧ e.id = id) ∧
          d.endpointId = e.id
      · simp [survives, owned d survives]
      · rw [owner d survives]
        simp [survives]

theorem share_resolveVerification {row : Verification} {event : WebhookEvent}
    {deliveries : List WebhookDelivery} {inbound : Option Id}
    (h : (Write.resolveVerification row event deliveries inbound).Of A db) :
    (db.commit (.resolveVerification row event deliveries inbound)).share A true =
        (db.share A true).commit (.resolveVerification row event deliveries inbound) ∧
      (db.commit (.resolveVerification row event deliveries inbound)).share A false =
        db.share A false := by
  obtain ⟨mine, eventMine, updated, delivered, linked⟩ := h
  have verifications : ∀ v ∈ db.verifications, decide (v.id = row.id) = true →
      (decide (v.appId = A) == false) = false := by
    intro v hv hit
    exact (inShare (updated v hv (of_decide_eq_true hit))).2
  have stays : ∀ side, ∀ v ∈ db.verifications, decide (v.id = row.id) = true →
      (decide (row.appId = A) == side) = (decide (v.appId = A) == side) := by
    intro side v hv hit
    rw [mine, updated v hv (of_decide_eq_true hit)]
  constructor
  · refine Db.eq_of_tables rfl rfl (filter_updateWhere_part (stays true)) ?_ rfl ?_ ?_
    · cases inbound with
      | none => rfl
      | some i => exact filter_updateWhere_part fun _ _ _ => rfl
    · simp [Db.share, Db.commit, eventMine]
    · have all : deliveries.filter (fun d => db.ownsEndpoint A d.endpointId == true) = deliveries :=
        List.filter_eq_self.mpr fun d hd => beq_iff_eq.mpr (delivered d hd)
      exact (List.filter_append ..).trans (congrArg _ all)
  · refine Db.eq_of_tables rfl rfl (filter_updateWhere_apart (stays false) verifications) ?_ rfl
      ?_ ?_
    · cases inbound with
      | none => rfl
      | some i =>
        refine filter_updateWhere_apart (fun _ _ _ => rfl) fun m hm hit => ?_
        exact beq_eq_false_iff_ne.mpr (ne_of_eq_of_ne (linked i rfl m hm (of_decide_eq_true hit))
          Bool.true_eq_false.mp)
    · simp [Db.share, Db.commit, eventMine]
    · have none : deliveries.filter (fun d => db.ownsEndpoint A d.endpointId == false) = [] :=
        List.filter_eq_nil_iff.mpr fun d hd => by simp [delivered d hd]
      exact (List.filter_append ..).trans ((congrArg _ none).trans (List.append_nil _))

/-- Likewise for the other tables. -/
theorem Db.share_commit {w : Write} (h : w.Of A db) :
    (db.commit w).share A true = (db.share A true).commit w ∧
      (db.commit w).share A false = db.share A false := by
  cases w with
  | putReceiver row => exact h.elim
  | insertVerification row =>
    have mine : row.appId = A := h
    constructor <;> simp only [Db.commit, Db.share, Db.owns, Db.ownsEndpoint, List.filter_append,
      List.filter_singleton, mine, decide_true] <;> simp
  | insertBinding row =>
    have mine : row.appId = A := h
    constructor <;> simp only [Db.commit, Db.share, Db.owns, Db.ownsEndpoint, List.filter_append,
      List.filter_singleton, mine, decide_true] <;> simp
  | insertInbound row =>
    have mine : db.owns A row.receiverId = true := h
    unfold Db.owns at mine
    constructor <;> simp only [Db.commit, Db.share, Db.owns, Db.ownsEndpoint, List.filter_append,
      List.filter_singleton, mine] <;> simp
  | setMatched i matched =>
    have apart : ∀ m ∈ db.inboundSms, decide (m.id = i) = true →
        (db.owns A m.receiverId == false) = false := by
      intro m hm hit
      rw [h m hm (of_decide_eq_true hit)]
      rfl
    simp only [Db.commit, Db.share, Db.mk.injEq, true_and]
    exact ⟨⟨filter_updateWhere_part fun _ _ _ => rfl, rfl⟩,
      filter_updateWhere_apart (fun _ _ _ => rfl) apart, rfl⟩
  | verifyBindings ids t =>
    have apart : ∀ b ∈ db.phoneBindings, decide (b.id ∈ ids) = true →
        (decide (b.appId = A) == false) = false := by
      intro b hb hit
      exact (inShare (h b hb (of_decide_eq_true hit))).2
    simp only [Db.commit, Db.share, Db.mk.injEq, true_and]
    exact ⟨⟨filter_updateWhere_part fun _ _ _ => rfl, rfl, rfl⟩,
      filter_updateWhere_apart (fun _ _ _ => rfl) apart, rfl, rfl⟩
  | revokeBinding appId id t =>
    have app : appId = A := h
    have apart : ∀ b ∈ db.phoneBindings, decide (b.id = id ∧ b.appId = appId) = true →
        (decide (b.appId = A) == false) = false := by
      intro b hb hit
      exact (inShare ((of_decide_eq_true hit).2.trans app)).2
    simp only [Db.commit, Db.share, Db.mk.injEq, true_and]
    exact ⟨⟨filter_updateWhere_part fun _ _ _ => rfl, rfl, rfl⟩,
      filter_updateWhere_apart (fun _ _ _ => rfl) apart, rfl, rfl⟩
  | insertEndpoint row => exact share_insertEndpoint h.1 h.2
  | deleteEndpoint appId id =>
    obtain rfl : appId = A := h
    exact share_deleteEndpoint
  | resolveVerification row event deliveries inbound => exact share_resolveVerification h

end

end Syrotp
