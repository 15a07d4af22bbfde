import Syrotp.Server.Proofs.Challenges

/-!
# The sign counter

A login reads the counter of a credential, asks the library about the one that the response
asserts, and writes that one back in a statement of its own. Each write is above what the same
login had read, but not above what another login has written since.
-/

namespace Syrotp

variable {S : Services} {asserted : WebauthnResponse → Nat}

/-! ## Updates -/

/-- The library goes by the counters: it accepts an assertion only if both counters are zero or the
asserted one is the greater one, which then is the new one. -/
def WebauthnLibrary.Counts (L : WebauthnLibrary) (asserted : WebauthnResponse → Nat) : Prop :=
  ∀ response expected stored newCounter,
    L.verifyAuthenticationResponse response expected stored = some (some newCounter) →
      newCounter = asserted response ∧
        ((newCounter = 0 ∧ stored.counter = 0) ∨ stored.counter < newCounter)

/-- The update of a credential by the login at a position. -/
structure LoginUpdate where
  position : Nat
  response : WebauthnResponse
  id : Id
  newCounter : Nat
  deriving DecidableEq, Repr

/-- The update that a step commits, also if its answer is lost. -/
def loginUpdate? (e : Deployment × Act Operation ServiceMove) : Option LoginUpdate :=
  match e.2 with
  | .turn i m => do
    let _ ← m.world?
    let job ← e.1.calls[i]?
    let c ← job.webauthn?
    let (input, id, newCounter) ← c.updating
    if fitsInteger newCounter then some ⟨i, input.response, id, newCounter⟩ else none
  | .arrive _ => none

/-- At this step the login at position `i` reads its credential and has its response accepted. -/
def Accepts (S : Services) (e : Deployment × Act Operation ServiceMove) (i : Nat)
    (response : WebauthnResponse) (row : WebauthnCredential) (newCounter : Nat) : Prop :=
  ∃ w input challenge expected, e.2 = .turn i (.statement w) ∧ input.response = response ∧
    e.1.calls[i]? = some (.webauthn (.login input (.selectCredential challenge))) ∧
    e.1.store.webauthn.credentials.find? (loginCredential S.webauthn input) = some row ∧
    checkAssertion S.webauthn expected response row = .ok newCounter

theorem Accepts.counts {e : Deployment × Act Operation ServiceMove} {i : Nat}
    {response : WebauthnResponse} {row : WebauthnCredential} {newCounter : Nat}
    (counts : S.webauthn.library.Counts asserted) (h : Accepts S e i response row newCounter) :
    newCounter = asserted response ∧ row.signCount ≤ newCounter := by
  obtain ⟨w, input, challenge, expected, _, _, _, _, accepted⟩ := h
  unfold checkAssertion at accepted
  split at accepted
  · exact nomatch accepted
  · exact nomatch accepted
  · next verified =>
    obtain rfl := Except.ok.inj accepted
    obtain ⟨same, zero | above⟩ := counts _ _ _ _ verified
    · exact ⟨same, by rw [zero.1]; exact Nat.le_of_eq zero.2⟩
    · exact ⟨same, Nat.le_of_lt above⟩

/-- A login that is about to write had its response accepted at an earlier step. -/
def Resumed (S : Services) (log : List (Deployment × Act Operation ServiceMove)) (i : Nat)
    (job : Job) : Prop :=
  ∀ (c : WebauthnCall) (input : VerifyInput) (id : Id) (newCounter : Nat),
    job.webauthn? = some c → c.updating = some (input, id, newCounter) →
      ∃ e ∈ log, ∃ row, row.id = id ∧ Accepts S e i input.response row newCounter

theorem updating_resumed {log : List (Deployment × Act Operation ServiceMove)} {p : Deployment}
    (run : DeploymentRun S log p) : ∀ i job, p.calls[i]? = some job → Resumed S log i job := by
  have idle : ∀ {log i job}, (∀ c, job.webauthn? = some c → c.updating = none) →
      Resumed S log i job :=
    fun idle c input id newCounter hj hu => nomatch (idle c hj).symm.trans hu
  refine Pool.call_history ?frame ?first ?admitted ?spawned ?turned run
  case frame =>
    intro log q a i job _ K c input id newCounter hj hu
    obtain ⟨e, he, accepted⟩ := K c input id newCounter hj hu
    exact ⟨e, List.mem_append_left _ he, accepted⟩
  case first => exact fun i job h => nomatch h
  case admitted => exact fun d r job h log i _ => idle fun c hc => (admitted_idle h hc).2.2
  case spawned =>
    intro log q i job m t _ _ h n hn log i _
    cases ceremony_turn h with
    | aside other same call spawned => exact idle fun c hc => nomatch (spawned n hn).symm.trans hc
    | _ => exact absurd hn List.not_mem_nil
  case turned =>
    intro log q i job m t run hi h _ c input id newCounter hj hu
    obtain ⟨c₀, w, write, rfl, rfl, step, _⟩ :=
      answered_turn h hj fun idle => nomatch idle.2.2.symm.trans hu
    have last : (q, Act.turn i (.statement w)) ∈ log ++ [(q, Act.turn i (.statement w))] :=
      List.mem_append_right _ (List.mem_singleton_self _)
    obtain ⟨challenge, row, expected, rfl, found, same, accepted⟩ := step.asserted hu
    exact ⟨_, last, row, same, w, input, challenge, expected, rfl, rfl, hi, found, accepted⟩

/-! ## Credentials along a run -/

/-- The `UPDATE` of a login. -/
def LoginUpdate.apply (u : LoginUpdate) (lastUsedAt : Time) (rows : List WebauthnCredential) :
    List WebauthnCredential :=
  updateWhere (fun c => c.id = u.id)
    (fun c => { c with signCount := u.newCounter, lastUsedAt := some lastUsedAt }) rows

/-- A step leaves the credentials alone, adds one under a new id, or updates one. -/
theorem credentials_step {p q : Deployment} {a : Act Operation ServiceMove}
    (h : p.step (deployment S) a = some q) :
    q.store.webauthn.credentials = p.store.webauthn.credentials ∨
    (∃ row, hasKey (·.id) row.id p.store.webauthn.credentials = false ∧
      q.store.webauthn.credentials = p.store.webauthn.credentials ++ [row]) ∨
    ∃ u t, loginUpdate? (p, a) = some u ∧
      q.store.webauthn.credentials = u.apply t p.store.webauthn.credentials := by
  rcases webauthn_stored h with same | ⟨i, m, w, c, c', write, rfl, hw, hi, step, same⟩
  · exact .inl (congrArg _ same)
  · rw [same]
    cases step with
    | insertCredential fresh => exact .inr (.inl ⟨_, fresh, rfl⟩)
    | @updateCredential input id newCounter fits =>
      refine .inr (.inr ⟨⟨i, input.response, id, newCounter⟩, _, ?_, rfl⟩)
      simp only [loginUpdate?, hw, hi, Job.webauthn?, WebauthnCall.updating, Option.bind_eq_bind,
        Option.bind_some, if_pos fits]
    | _ => exact .inl rfl

/-- The call of an update is the login at its position. -/
theorem loginUpdate_call {p : Deployment} {a : Act Operation ServiceMove} {u : LoginUpdate}
    (hu : loginUpdate? (p, a) = some u) :
    ∃ m w input, a = .turn u.position m ∧ m.world? = some w ∧ input.response = u.response ∧
      p.calls[u.position]? = some (.webauthn (.login input (.update u.id u.newCounter))) ∧
      fitsInteger u.newCounter = true := by
  unfold loginUpdate? at hu
  split at hu
  · next i m act =>
    simp only [Option.bind_eq_bind, Option.bind_eq_some_iff] at hu
    obtain ⟨w, hw, job, hi, c, hj, ⟨input, id, newCounter⟩, updates, hu⟩ := hu
    obtain ⟨fits, hu⟩ := Option.ite_none_right_eq_some.mp hu
    obtain rfl := Option.some.inj hu
    obtain rfl := Job.eq_of_webauthn? hj
    cases c with
    | login input' phase =>
      cases phase with
      | update id' newCounter' =>
        obtain ⟨rfl, rest⟩ := Prod.mk.inj (Option.some.inj updates)
        obtain ⟨rfl, rfl⟩ := Prod.mk.inj rest
        exact ⟨m, w, _, act, hw, rfl, hi, fits⟩
      | _ => exact nomatch updates
    | _ => exact nomatch updates
  · exact nomatch hu

/-- The step of an update updates. -/
theorem loginUpdate_step {p q : Deployment} {a : Act Operation ServiceMove} {u : LoginUpdate}
    (hu : loginUpdate? (p, a) = some u) (h : p.step (deployment S) a = some q) :
    ∃ t, q.store.webauthn.credentials = u.apply t p.store.webauthn.credentials := by
  obtain ⟨m, w, input, rfl, hw, _, hi, fits⟩ := loginUpdate_call hu
  have stated : ∀ w : ServiceWorld, (WebauthnCall.login input (.update u.id u.newCounter)).statement
      S.webauthn p.store.webauthn (lockedChallenge (p.others u.position)) w.toWorld =
        some (.login input (.done (.ok ())), some (.updateCredential u.id u.newCounter w.now)) := by
    intro w
    simp only [WebauthnCall.statement, verifyLogin, fits, Bool.not_true, Bool.false_eq_true, if_false,
      Option.map_some]
  obtain ⟨job, t, hi', turn, rfl⟩ := Pool.step_turn h
  obtain rfl := Option.some.inj (hi'.symm.trans hi)
  cases m with
  | statement w =>
    obtain ⟨r, hr, rfl⟩ := Option.map_eq_some_iff.mp turn
    obtain rfl := Option.some.inj ((stated w).symm.trans hr)
    exact ⟨w.now, rfl⟩
  | lost w =>
    obtain ⟨t', ht', rfl⟩ := Option.map_eq_some_iff.mp turn
    obtain ⟨r, hr, rfl⟩ := Option.map_eq_some_iff.mp ht'
    obtain rfl := Option.some.inj ((stated w).symm.trans hr)
    exact ⟨w.now, rfl⟩
  | _ => cases hw

theorem LoginUpdate.mem_apply {u : LoginUpdate} {t : Time} {rows : List WebauthnCredential}
    {r : WebauthnCredential} (h : r ∈ u.apply t rows) : ∃ r₀ ∈ rows, r₀.id = r.id ∧
      (r.id = u.id ∧ r.signCount = u.newCounter ∨ r.id ≠ u.id ∧ r.signCount = r₀.signCount) := by
  rcases mem_updateWhere_cases h with ⟨r₀, hr, hit, rfl⟩ | ⟨hr, miss⟩
  · exact ⟨r₀, hr, rfl, .inl ⟨of_decide_eq_true hit, rfl⟩⟩
  · exact ⟨r, hr, rfl, .inr ⟨of_decide_eq_false miss, rfl⟩⟩

theorem LoginUpdate.apply_mem {u : LoginUpdate} {t : Time} {rows : List WebauthnCredential}
    {r₀ : WebauthnCredential} (h : r₀ ∈ rows) : ∃ r ∈ u.apply t rows, r.id = r₀.id ∧
      (r.id = u.id ∧ r.signCount = u.newCounter ∨ r.id ≠ u.id ∧ r.signCount = r₀.signCount) := by
  by_cases hit : r₀.id = u.id
  · exact ⟨_, mem_updateWhere_of_pos h (decide_eq_true hit), rfl, .inl ⟨hit, rfl⟩⟩
  · exact ⟨r₀, mem_updateWhere_of_neg h (decide_eq_false hit), rfl, .inr ⟨hit, rfl⟩⟩

/-- A credential stays, and its counter is what it was or what an update has written since. -/
theorem written_since {p q : Deployment} {log : List (Deployment × Act Operation ServiceMove)}
    (run : Run (Pool.step (deployment S)) p log q) {row : WebauthnCredential}
    (there : row ∈ p.store.webauthn.credentials)
    (ids : (p.store.webauthn.credentials.map (·.id)).Nodup) :
    (∃ r ∈ q.store.webauthn.credentials, r.id = row.id) ∧
      ∀ r ∈ q.store.webauthn.credentials, r.id = row.id → r.signCount = row.signCount ∨
        ∃ e ∈ log, ∃ u, loginUpdate? e = some u ∧ u.id = row.id ∧ r.signCount = u.newCounter := by
  induction run with
  | start => exact ⟨⟨row, there, rfl⟩, fun r hr same => .inl (by rw [eq_of_key ids hr there same])⟩
  | @next log q q' a _ step ih =>
    obtain ⟨⟨r, hr, stays⟩, values⟩ := ih
    have before : ∀ r' ∈ q.store.webauthn.credentials, r'.id = row.id →
        r'.signCount = row.signCount ∨ ∃ e ∈ log ++ [(q, a)], ∃ u, loginUpdate? e = some u ∧
          u.id = row.id ∧ r'.signCount = u.newCounter := by
      intro r' hr' same
      refine (values r' hr' same).imp id ?_
      rintro ⟨e, he, rest⟩
      exact ⟨e, List.mem_append_left _ he, rest⟩
    rcases credentials_step step with same | ⟨new, fresh, added⟩ | ⟨u, t, hu, updated⟩
    · rw [same]
      exact ⟨⟨r, hr, stays⟩, before⟩
    · rw [added]
      refine ⟨⟨r, List.mem_append_left _ hr, stays⟩, fun r' hr' same => ?_⟩
      rcases List.mem_append.mp hr' with old | isNew
      · exact before r' old same
      · obtain rfl := List.mem_singleton.mp isNew
        exact absurd (stays.trans same.symm) (hasKey_eq_false.mp fresh r hr)
    · rw [updated]
      obtain ⟨r', hr', kept, _⟩ := LoginUpdate.apply_mem (u := u) (t := t) hr
      refine ⟨⟨r', hr', kept.trans stays⟩, fun r' hr' same => ?_⟩
      obtain ⟨r₀, hr₀, id, ⟨hit, value⟩ | ⟨_, value⟩⟩ := LoginUpdate.mem_apply hr'
      · exact .inr ⟨(q, a), List.mem_append_right _ (List.mem_singleton_self _), u, hu,
          hit.symm.trans same, value⟩
      · rw [value]
        exact before r₀ hr₀ (id.trans same)

/-! ## When the counter rises -/

/-- Every credential is still there, and its counter has not decreased. -/
def Rises (p q : Deployment) : Prop :=
  ∀ r ∈ p.store.webauthn.credentials, ∃ r' ∈ q.store.webauthn.credentials, r'.id = r.id ∧
    r.signCount ≤ r'.signCount

instance (p q : Deployment) : Decidable (Rises p q) :=
  inferInstanceAs (Decidable (∀ r ∈ p.store.webauthn.credentials,
    ∃ r' ∈ q.store.webauthn.credentials, r'.id = r.id ∧ r.signCount ≤ r'.signCount))

theorem Rises.refl (p : Deployment) : Rises p p := fun r hr => ⟨r, hr, rfl, Nat.le_refl _⟩

theorem Rises.trans (p q s : Deployment) (h : Rises p q) (h' : Rises q s) : Rises p s := by
  intro r hr
  obtain ⟨r', hr', same, le⟩ := h r hr
  obtain ⟨r'', hr'', same', le'⟩ := h' r' hr'
  exact ⟨r'', hr'', same'.trans same, Nat.le_trans le le'⟩

/-- The login at position `i` reads its credential. -/
def ReadsCredential (e : Deployment × Act Operation ServiceMove) (i : Nat) : Prop :=
  ∃ m input challenge, e.2 = .turn i m ∧
    e.1.calls[i]? = some (.webauthn (.login input (.selectCredential challenge)))

/-- No login writes after another one has written a greater counter to the same credential since
the first read it. -/
def NeverOvertaken (asserted : WebauthnResponse → Nat)
    (log : List (Deployment × Act Operation ServiceMove)) : Prop :=
  ∀ pre e₀ mid e post u, log = pre ++ e₀ :: (mid ++ e :: post) → loginUpdate? e = some u →
    ReadsCredential e₀ u.position → ∀ e' ∈ mid, ∀ u', loginUpdate? e' = some u' → u'.id = u.id →
      asserted u'.response ≤ asserted u.response

/-- What an update writes is what its response asserts; and the login read the credential at an
earlier step, with a counter that was no greater. -/
theorem update_read {log : List (Deployment × Act Operation ServiceMove)}
    {e : Deployment × Act Operation ServiceMove} {u : LoginUpdate}
    (counts : S.webauthn.library.Counts asserted) (run : DeploymentRun S log e.1)
    (hu : loginUpdate? e = some u) : u.newCounter = asserted u.response ∧
      ∃ e₀ ∈ log, ReadsCredential e₀ u.position ∧
        ∃ row ∈ e₀.1.store.webauthn.credentials, row.id = u.id ∧ row.signCount ≤ u.newCounter := by
  obtain ⟨m, w, input, act, _, response, hi, _⟩ := loginUpdate_call hu
  obtain ⟨e₀, he₀, row, same, accepted⟩ := updating_resumed run _ _ hi _ input _ _ rfl rfl
  rw [response] at accepted
  obtain ⟨value, above⟩ := accepted.counts counts
  obtain ⟨w₀, input₀, challenge, _, act₀, _, hi₀, found, _⟩ := accepted
  exact ⟨value, e₀, he₀, ⟨_, input₀, challenge, act₀, hi₀⟩, row, List.mem_of_find?_eq_some found, same,
    above⟩

theorem ReadsCredential.no_update {e : Deployment × Act Operation ServiceMove} {i : Nat}
    (h : ReadsCredential e i) {u : LoginUpdate} : loginUpdate? e ≠ some u := by
  intro hu
  obtain ⟨m, input, challenge, act, reading⟩ := h
  obtain ⟨m', w, input', act', _, _, updating, _⟩ := loginUpdate_call hu
  obtain ⟨rfl, rfl⟩ := Act.turn.inj (act.symm.trans act')
  exact nomatch reading.symm.trans updating

/-- If no step lets a counter drop, an update is above all the earlier ones. -/
theorem update_above {log₁ : List (Deployment × Act Operation ServiceMove)}
    {e e' : Deployment × Act Operation ServiceMove} {v q : Deployment} {u u' : LoginUpdate}
    (counts : S.webauthn.library.Counts asserted)
    (before : DeploymentRun S log₁ e'.1) (rising : ∀ e₁ ∈ log₁, ∀ v,
      e₁.1.step (deployment S) e₁.2 = some v → Rises e₁.1 v)
    (step' : e'.1.step (deployment S) e'.2 = some v) (between : Rises v e.1)
    (step : e.1.step (deployment S) e.2 = some q) (last : Rises e.1 q)
    (hu' : loginUpdate? e' = some u') (hu : loginUpdate? e = some u) (same : u'.id = u.id) :
    u'.newCounter ≤ u.newCounter := by
  obtain ⟨_, e₀, he₀, _, row, hrow, id, _⟩ := update_read counts before hu'
  obtain ⟨log₃, v₀, log₄, rfl, _, hv₀, later⟩ := before.split he₀
  have earlier : Rises e₀.1 e'.1 := by
    refine ((Run.single hv₀).trans later).rel_of Rises.refl Rises.trans fun e₁ he₁ => ?_
    rcases List.mem_append.mp he₁ with first | rest
    · exact rising e₁ (List.mem_append_right _ (List.mem_singleton.mp first ▸ List.mem_cons_self))
    · exact rising e₁ (List.mem_append_right _ (List.mem_cons_of_mem _ rest))
  obtain ⟨r, hr, stays, _⟩ := earlier row hrow
  obtain ⟨t', updated'⟩ := loginUpdate_step hu' step'
  obtain ⟨r', hr', kept, ⟨_, value'⟩ | ⟨miss, _⟩⟩ := LoginUpdate.apply_mem (u := u') (t := t') hr
  · rw [← updated'] at hr'
    obtain ⟨r₁, hr₁, id₁, le₁⟩ := between r' hr'
    obtain ⟨r₂, hr₂, id₂, le₂⟩ := last r₁ hr₁
    obtain ⟨t, updated⟩ := loginUpdate_step hu step
    rw [updated] at hr₂
    have hit : r₂.id = u.id :=
      id₂.trans (id₁.trans (kept.trans (stays.trans (id.trans same))))
    obtain ⟨_, _, _, ⟨_, value⟩ | ⟨miss, _⟩⟩ := LoginUpdate.mem_apply hr₂
    · rw [← value', ← value]
      exact Nat.le_trans le₁ le₂
    · exact absurd hit miss
  · exact absurd (kept.trans (stays.trans id)) miss

/-- In a run no sign counter ever decreases if and only if no login writes after another one has
written a greater counter to the credential since the first read it. -/
theorem sign_count_rises_iff (counts : S.webauthn.library.Counts asserted)
    {log : List (Deployment × Act Operation ServiceMove)} {p : Deployment}
    (run : DeploymentRun S log p) :
    (moments log p).Pairwise Rises ↔ NeverOvertaken asserted log := by
  rw [run.pairwise_moments Rises.refl Rises.trans]
  constructor
  · rintro rising pre e₀ mid e post u rfl hu reads e' he' u' hu' same
    obtain ⟨m₁, m₂, rfl⟩ := List.append_of_mem he'
    obtain ⟨v, before, step', after⟩ := run.split_at
      (show _ = (pre ++ e₀ :: m₁) ++ e' :: (m₂ ++ e :: post) by simp)
    obtain ⟨q, between, step, _⟩ := after.split_at rfl
    have last := rising e (by simp) q step
    have rise : Rises v e.1 :=
      between.rel_of Rises.refl Rises.trans fun e₁ he₁ => rising e₁ (by simp [he₁])
    have le := update_above counts before
      (fun e₁ he₁ => rising e₁ (by simp at he₁ ⊢; tauto)) step' rise step last hu' hu same
    obtain ⟨value', _⟩ := update_read counts before hu'
    obtain ⟨value, _⟩ := update_read counts ((before.next step').trans between) hu
    rw [← value', ← value]
    exact le
  · intro never e he v step
    obtain ⟨log₁, _, log₂, rfl, before, _, _⟩ := run.split he
    rcases credentials_step step with same | ⟨new, _, added⟩ | ⟨u, t, hu, updated⟩
    · exact fun r hr => ⟨r, same ▸ hr, rfl, Nat.le_refl _⟩
    · exact fun r hr => ⟨r, added ▸ List.mem_append_left _ hr, rfl, Nat.le_refl _⟩
    · intro r hr
      obtain ⟨r', hr', same, ⟨hit, value⟩ | ⟨_, value⟩⟩ := LoginUpdate.apply_mem (u := u) (t := t) hr
      · refine ⟨r', updated ▸ hr', same, ?_⟩
        obtain ⟨written, e₀, he₀, reads, row, hrow, id, floor⟩ := update_read counts before hu
        obtain ⟨pre, mid, rfl⟩ := List.append_of_mem he₀
        obtain ⟨v₀, first, step₀, later⟩ := before.split_at rfl
        have ids := (DeploymentRun.inv first).webauthn.credentialIds
        have since := (written_since ((Run.single step₀).trans later) hrow ids).2 r hr
          (same.symm.trans (hit.trans id.symm))
        rw [value]
        rcases since with kept | ⟨e', he', u', hu', id', value'⟩
        · rw [kept]
          exact floor
        · rcases List.mem_append.mp he' with first | between
          · exact absurd hu' (List.mem_singleton.mp first ▸ reads.no_update)
          · have le := never pre e₀ mid e log₂ u (by simp) hu reads e' between u' hu'
              (id'.trans id)
            obtain ⟨m₁, m₂, rfl⟩ := List.append_of_mem between
            obtain ⟨_, before', _, _⟩ := before.split_at
              (show _ = (pre ++ e₀ :: m₁) ++ e' :: m₂ by simp)
            obtain ⟨written', _⟩ := update_read counts before' hu'
            rw [value', written', written]
            exact le
      · exact ⟨r', updated ▸ hr', same, Nat.le_of_eq value.symm⟩

namespace CeremonyScript

/-- The counter that a response carries. -/
def carried (r : WebauthnResponse) : Nat := (r.body.headD 0).toNat

theorem library_counts : library.Counts carried := by
  intro response expected stored newCounter h
  obtain ⟨⟨-, above⟩, same⟩ := Option.ite_none_right_eq_some.mp (Option.some.inj h)
  obtain rfl := Option.some.inj same
  exact ⟨rfl, above⟩

/-- A credential is registered, and two logins with the counters 7 and 5 read it. -/
def twoLogins : List (Act Operation ServiceMove) :=
  [options .register] ++ turns 0 2 1000 ++
  [.arrive (.webauthn (.registerVerify (response 0 1000)))] ++ turns 1 6 1100 ++
  [options .login] ++ turns 2 2 2000 ++ [options .login] ++ turns 3 2 3000 ++
  [.arrive (.webauthn (.loginVerify (response 7 3000)))] ++ turns 4 5 3100 ++
  [.arrive (.webauthn (.loginVerify (response 5 2000)))] ++ turns 5 5 3200

/-- The one with 7 writes last. -/
def inOrder : List (Act Operation ServiceMove) := twoLogins ++ turns 5 1 3300 ++ turns 4 1 3400

/-- The one with 5 writes last. -/
def overtaken : List (Act Operation ServiceMove) := twoLogins ++ turns 4 1 3300 ++ turns 5 1 3400

theorem inOrder_runs : (result inOrder).isSome = true := by decide +kernel

theorem inOrder_rises : (moments ((result inOrder).get inOrder_runs).1
    ((result inOrder).get inOrder_runs).2).Pairwise Rises := by decide +kernel

theorem overtaken_runs : (result overtaken).isSome = true := by decide +kernel

end CeremonyScript

/-- Two logins overlap, and the greater counter is written last. -/
theorem sign_count_rises_script : ∃ log p, DeploymentRun CeremonyScript.services log p ∧
    p.store.webauthn.credentials.map (·.signCount) = [7] ∧
    (moments log p).Pairwise Rises ∧ NeverOvertaken CeremonyScript.carried log := by
  have run := CeremonyScript.run CeremonyScript.inOrder_runs
  exact ⟨_, _, run, by decide +kernel, CeremonyScript.inOrder_rises,
    (sign_count_rises_iff CeremonyScript.library_counts run).mp CeremonyScript.inOrder_rises⟩

/-- Two logins overlap, both succeed, and the counter goes from 0 to 7 and then to 5. -/
theorem sign_count_drops : ∃ log p, DeploymentRun CeremonyScript.services log p ∧
    CeremonyScript.services.webauthn.library.Counts CeremonyScript.carried ∧
    p.calls[4]? = some (.webauthn (.login (CeremonyScript.response 7 3000) (.done (.ok ())))) ∧
    p.calls[5]? = some (.webauthn (.login (CeremonyScript.response 5 2000) (.done (.ok ())))) ∧
    ((moments log p).map fun q => q.store.webauthn.credentials.map (·.signCount)).dedup =
      [[], [0], [7], [5]] ∧
    ¬(moments log p).Pairwise Rises := by
  refine ⟨_, _, CeremonyScript.run CeremonyScript.overtaken_runs, CeremonyScript.library_counts,
    ?_, ?_, ?_, ?_⟩
  all_goals decide +kernel

end Syrotp
