import Syrotp.Server.Proofs.Registrations
import Syrotp.Server.Proofs.SignCount

/-!
# The range of the sign counter

An authenticator counts with 32 bits without a sign, the column with 32 bits that have one. What
the library has accepted is written by the next statement of the call, and from 2³¹ on that
statement fails.
-/

namespace Syrotp

variable {S : Services} {X : Webauthn} {db : WebauthnDb} {held : Id → Bool} {w : World}

/-! ## What a counter is accepted for -/

/-- What a login asks the library about: the credential it has found, and as the library gets it. -/
def WebauthnCall.asked (X : Webauthn) (db : WebauthnDb) :
    WebauthnCall → Option (Id × StoredAuthenticator)
  | .login input (.selectCredential _) =>
    (db.credentials.find? (loginCredential X input)).map fun row =>
      (row.id, ⟨input.response.id, row.publicKey, row.signCount, row.transports⟩)
  | _ => none

/-- A login goes on to its update with what the library says of that. -/
theorem CeremonyStep.asks {c c' : WebauthnCall} {write : Option WebauthnWrite}
    {input : VerifyInput} {id : Id} {newCounter : Nat}
    (h : CeremonyStep X db held w c c' write) (updates : c'.updating = some (input, id, newCounter)) :
    ∃ stored expected, c.asked X db = some (id, stored) ∧
      X.library.verifyAuthenticationResponse input.response expected stored =
        some (some newCounter) := by
  obtain ⟨challenge, row, expected, rfl, found, rfl, accepted⟩ := h.asserted updates
  refine ⟨⟨input.response.id, row.publicKey, row.signCount, row.transports⟩, expected,
    by simp only [WebauthnCall.asked, found, Option.map_some], ?_⟩
  unfold checkAssertion at accepted
  split at accepted
  · cases accepted
  · cases accepted
  · next verified =>
    obtain rfl := Except.ok.inj accepted
    exact verified

/-- A registration that is about to be stored has been accepted by the library at an earlier step. -/
def Attested (S : Services) (log : List (Deployment × Act Operation ServiceMove)) (i : Nat)
    (job : Job) : Prop :=
  ∀ input info, job = .webauthn (.register input (.insert info)) →
    ∃ e ∈ log, ∃ w challenge, e.2 = .turn i (.statement w) ∧
      e.1.calls[i]? = some (.webauthn (.register input (.selectExisting challenge))) ∧
      checkRegistration S.webauthn challenge input.response = .ok info

theorem inserting_attested {log : List (Deployment × Act Operation ServiceMove)} {p : Deployment}
    (run : DeploymentRun S log p) : ∀ i job, p.calls[i]? = some job → Attested S log i job := by
  refine Pool.call_history ?frame ?first ?admitted ?spawned ?turned run
  case frame =>
    intro log q a i job _ K input info same
    obtain ⟨e, he, facts⟩ := K input info same
    exact ⟨e, List.mem_append_left _ he, facts⟩
  case first => exact fun i job h => nomatch h
  case admitted =>
    rintro d r _ h log i _ input info rfl
    cases r with
    | webauthn r => cases r <;> cases h
    | core r =>
      obtain ⟨_, _, same⟩ := Option.map_eq_some_iff.mp h
      cases same
    | _ => cases h
  case spawned =>
    rintro log q i job m t _ _ h n hn log' i' _ input info rfl
    cases ceremony_turn h with
    | aside other same call spawned => exact nomatch spawned _ hn
    | _ => exact absurd hn List.not_mem_nil
  case turned =>
    intro log q i job m t run hi h _ input info same
    cases job with
    | webauthn c =>
      cases m with
      | statement w =>
        obtain ⟨⟨c', write⟩, stated, rfl⟩ := Option.map_eq_some_iff.mp h
        obtain rfl := Job.webauthn.inj same
        cases c with
        | register input' phase =>
          obtain ⟨⟨phase', write'⟩, ran, same⟩ := Option.map_eq_some_iff.mp stated
          cases same
          cases register_cases ran with
          | consumes source early => obtain ⟨_, same⟩ | ⟨_, same⟩ := early <;> cases same
          | accepts accepted =>
            exact ⟨_, List.mem_append_right _ (List.mem_singleton_self _), w, _, rfl, hi, accepted⟩
        | _ =>
          obtain ⟨_, _, same⟩ := Option.map_eq_some_iff.mp stated
          cases same
      | lost w =>
        obtain ⟨_, _, rfl⟩ := Option.map_eq_some_iff.mp h
        cases c <;> cases same
      | _ =>
        obtain ⟨_, h⟩ := Option.ite_none_right_eq_some.mp h
        obtain rfl := Option.some.inj h
        cases c <;> cases same
    | _ =>
      cases ceremony_turn h with
      | aside other _ call => exact nomatch (congrArg Job.webauthn? same).symm.trans call

/-! ## What is stored -/

def WebauthnCall.succeeded : WebauthnCall → Bool
  | .register _ (.done (.ok _)) | .login _ (.done (.ok _)) => true
  | _ => false

/-- The call at position `i` has ended without an error, the credential has the counter, and until
another login stores one the library is asked about the credential with this counter. -/
structure CounterStored (S : Services) (q : Deployment) (i : Nat) (id : Id) (counter : Nat) :
    Prop where
  answered : ∃ c, q.calls[i]? = some (.webauthn c) ∧ c.succeeded = true
  there : ∃ row ∈ q.store.webauthn.credentials, row.id = id ∧ row.signCount = counter
  checked : ∀ log p, Run (Pool.step (deployment S)) q log p →
    (∀ e ∈ log, ∀ u, loginUpdate? e = some u → u.id ≠ id) →
      ∀ c stored, .webauthn c ∈ p.calls → c.asked S.webauthn p.store.webauthn = some (id, stored) →
        stored.counter = counter

/-- A row that has the counter is what later logins ask about. -/
theorem CounterStored.of_row {q : Deployment} {i : Nat} {row : WebauthnCredential}
    {c : WebauthnCall} (I : q.store.webauthn.Inv) (hrow : row ∈ q.store.webauthn.credentials)
    (hc : q.calls[i]? = some (.webauthn c)) (ended : c.succeeded = true) :
    CounterStored S q i row.id row.signCount where
  answered := ⟨c, hc, ended⟩
  there := ⟨row, hrow, rfl, rfl⟩
  checked log p run alone c stored _ asks := by
    cases c with
    | login input phase =>
      cases phase with
      | selectCredential challenge =>
        obtain ⟨found, hit, same⟩ := Option.map_eq_some_iff.mp asks
        obtain ⟨sameId, rfl⟩ := Prod.mk.inj same
        have since := (written_since run hrow I.credentialIds).2 found
          (List.mem_of_find?_eq_some hit) sameId
        rcases since with kept | ⟨e, he, u, hu, id, _⟩
        · exact kept
        · exact absurd id (alone e he u hu)
      | _ => cases asks
    | _ => cases asks

/-- The last statement of a login, as a step of the deployment. -/
theorem update_turn {p q : Deployment} {i : Nat} {w : ServiceWorld} {input : VerifyInput} {id : Id}
    {newCounter : Nat} (step : p.step (deployment S) (.turn i (.statement w)) = some q)
    (before : p.calls[i]? = some (.webauthn (.login input (.update id newCounter)))) :
    (fitsInteger newCounter = false ∧
      q.calls[i]? = some (.webauthn (.login input (.done (.error internal))))) ∨
    fitsInteger newCounter = true ∧
      q.calls[i]? = some (.webauthn (.login input (.done (.ok ())))) ∧
      q.store.webauthn =
        p.store.webauthn.commit (.updateCredential id newCounter w.toWorld.now) := by
  obtain ⟨job, t, hi, turn, rfl⟩ := Pool.step_turn step
  obtain rfl := Option.some.inj (hi.symm.trans before)
  have after := Pool.turned_self (t := t) hi
  obtain ⟨⟨c', write⟩, stated, rfl⟩ := Option.map_eq_some_iff.mp turn
  obtain ⟨⟨phase', write'⟩, ran, same⟩ := Option.map_eq_some_iff.mp stated
  obtain ⟨rfl, rfl⟩ := Prod.mk.inj same
  obtain ⟨large, same⟩ | ⟨fits, same⟩ := ite_eq_iff.mp ran
  · obtain ⟨rfl, rfl⟩ := Prod.mk.inj (Option.some.inj same)
    exact .inl ⟨by simpa using large, after⟩
  · obtain ⟨rfl, rfl⟩ := Prod.mk.inj (Option.some.inj same)
    exact .inr ⟨by simpa using fits, after, rfl⟩

theorem fitsInteger_iff {n : Nat} : fitsInteger n = true ↔ n < 2 ^ 31 := by
  simp only [fitsInteger, decide_eq_true_eq]

theorem inserted_counter_iff {log : List (Deployment × Act Operation ServiceMove)}
    {p q : Deployment} {i : Nat} {w : ServiceWorld} {input : VerifyInput} {info : RegistrationInfo}
    (run : DeploymentRun S log p)
    (step : p.step (deployment S) (.turn i (.statement w)) = some q)
    (before : p.calls[i]? = some (.webauthn (.register input (.insert info)))) :
    CounterStored S q i (info.row S.webauthn w.toWorld input).id info.counter ↔
      info.counter < 2 ^ 31 ∧
        hasKey (·.id) (info.row S.webauthn w.toWorld input).id p.store.webauthn.credentials = false ∧
        hasKey (·.lookup) (info.lookup S.webauthn input) p.store.webauthn.credentials = false := by
  have I := (DeploymentRun.inv (run.next step)).webauthn
  obtain ⟨phase', write, now, registers, stored⟩ := register_turn step before
  constructor
  · intro h
    obtain ⟨c, hc, ended⟩ := h.answered
    obtain rfl := Job.webauthn.inj (Option.some.inj (now.symm.trans hc))
    cases registers with
    | consumes source early => obtain ⟨_, rfl⟩ | ⟨_, rfl⟩ := early <;> cases ended
    | refused reason => cases ended
    | inserts freshId freshKey fits => exact ⟨fitsInteger_iff.mp fits, freshId, freshKey⟩
  · rintro ⟨small, freshId, freshKey⟩
    cases registers with
    | consumes source => obtain same | ⟨_, same⟩ := source <;> cases same
    | refused reason =>
      rcases reason info rfl with taken | taken | large
      · exact nomatch freshId.symm.trans taken
      · exact nomatch freshKey.symm.trans taken
      · exact nomatch large.symm.trans (fitsInteger_iff.mpr small)
    | inserts =>
      have hrow : info.row S.webauthn w.toWorld input ∈ q.store.webauthn.credentials := by
        rw [stored]
        exact List.mem_append_right _ (List.mem_singleton_self _)
      exact .of_row I hrow now rfl

theorem updated_counter_iff {log : List (Deployment × Act Operation ServiceMove)}
    {p q : Deployment} {i : Nat} {w : ServiceWorld} {input : VerifyInput} {id : Id}
    {newCounter : Nat} (run : DeploymentRun S log p)
    (step : p.step (deployment S) (.turn i (.statement w)) = some q)
    (before : p.calls[i]? = some (.webauthn (.login input (.update id newCounter)))) :
    CounterStored S q i id newCounter ↔ newCounter < 2 ^ 31 := by
  have I := (DeploymentRun.inv (run.next step)).webauthn
  rcases update_turn step before with ⟨large, failed⟩ | ⟨fits, ended, stored⟩
  · constructor
    · intro h
      obtain ⟨c, hc, ended⟩ := h.answered
      obtain rfl := Job.webauthn.inj (Option.some.inj (failed.symm.trans hc))
      cases ended
    · exact fun small => nomatch large.symm.trans (fitsInteger_iff.mpr small)
  · refine ⟨fun _ => fitsInteger_iff.mp fits, fun _ => ?_⟩
    obtain ⟨e, he, row, rfl, accepted⟩ := updating_resumed run _ _ before _ input _ _ rfl rfl
    obtain ⟨_, _, _, _, _, _, _, found, _⟩ := accepted
    obtain ⟨log₁, v, log₂, _, earlier, hs, later⟩ := run.split he
    have ids := (DeploymentRun.inv earlier).webauthn.credentialIds
    obtain ⟨⟨r, hr, same⟩, _⟩ := written_since ((Run.single hs).trans later)
      (List.mem_of_find?_eq_some found) ids
    have hrow : { r with signCount := newCounter, lastUsedAt := some w.toWorld.now } ∈
        q.store.webauthn.credentials := by
      rw [stored]
      exact mem_updateWhere_of_pos hr (decide_eq_true same)
    rw [← same]
    exact .of_row I hrow ended rfl

/-- A registration of a credential that the app has is the end of it, and stores nothing. -/
theorem existing_turn {p q : Deployment} {i : Nat} {w : ServiceWorld} {input : VerifyInput}
    {challenge : Option Text} {info : RegistrationInfo}
    (step : p.step (deployment S) (.turn i (.statement w)) = some q)
    (before : p.calls[i]? = some (.webauthn (.register input (.selectExisting challenge))))
    (accepted : checkRegistration S.webauthn challenge input.response = .ok info)
    (known : hasKey (·.lookup) (info.lookup S.webauthn input) p.store.webauthn.credentials = true) :
    q.calls[i]? = some (.webauthn (.register input (.done (.ok info.credentialId)))) ∧
      q.store.webauthn = p.store.webauthn := by
  obtain ⟨job, t, hi, turn, rfl⟩ := Pool.step_turn step
  obtain rfl := Option.some.inj (hi.symm.trans before)
  have after := Pool.turned_self (t := t) hi
  obtain ⟨⟨c', write⟩, stated, rfl⟩ := Option.map_eq_some_iff.mp turn
  obtain ⟨⟨phase', write'⟩, ran, same⟩ := Option.map_eq_some_iff.mp stated
  obtain ⟨rfl, rfl⟩ := Prod.mk.inj same
  simp only [verifyRegister, accepted] at ran
  obtain ⟨rfl, rfl⟩ := Prod.mk.inj (Option.some.inj ((if_pos known).symm.trans ran))
  exact ⟨after, rfl⟩

theorem existing_counter_iff {log : List (Deployment × Act Operation ServiceMove)}
    {p q : Deployment} {i : Nat} {w : ServiceWorld} {input : VerifyInput}
    {challenge : Option Text} {info : RegistrationInfo} {row : WebauthnCredential}
    (run : DeploymentRun S log p)
    (step : p.step (deployment S) (.turn i (.statement w)) = some q)
    (before : p.calls[i]? = some (.webauthn (.register input (.selectExisting challenge))))
    (accepted : checkRegistration S.webauthn challenge input.response = .ok info)
    (hrow : row ∈ p.store.webauthn.credentials) (own : row.lookup = info.lookup S.webauthn input) :
    CounterStored S q i row.id info.counter ↔ row.signCount = info.counter := by
  have I := (DeploymentRun.inv (run.next step)).webauthn
  obtain ⟨ended, same⟩ := existing_turn step before accepted (hasKey_iff.mpr ⟨row, hrow, own⟩)
  rw [← same] at hrow
  constructor
  · intro h
    obtain ⟨other, there, id, counter⟩ := h.there
    rw [← counter, eq_of_key I.credentialIds hrow there id.symm]
  · intro counter
    rw [← counter]
    exact .of_row I hrow ended rfl

/-- A counter that the library has accepted is stored, and later logins are checked against it, if
and only if it is below 2³¹; for a registration also only if the credential is not there yet, or is
there with this counter. -/
theorem counter_stored_iff {log : List (Deployment × Act Operation ServiceMove)}
    {p q : Deployment} {i : Nat} {w : ServiceWorld} (run : DeploymentRun S log p)
    (step : p.step (deployment S) (.turn i (.statement w)) = some q) :
    (∀ input info, p.calls[i]? = some (.webauthn (.register input (.insert info))) →
      (CounterStored S q i (info.row S.webauthn w.toWorld input).id info.counter ↔
        info.counter < 2 ^ 31 ∧
          hasKey (·.id) (info.row S.webauthn w.toWorld input).id p.store.webauthn.credentials =
            false ∧
          hasKey (·.lookup) (info.lookup S.webauthn input) p.store.webauthn.credentials = false)) ∧
    (∀ input challenge info row,
      p.calls[i]? = some (.webauthn (.register input (.selectExisting challenge))) →
      checkRegistration S.webauthn challenge input.response = .ok info →
      row ∈ p.store.webauthn.credentials → row.lookup = info.lookup S.webauthn input →
        (CounterStored S q i row.id info.counter ↔ row.signCount = info.counter)) ∧
    ∀ input id newCounter,
      p.calls[i]? = some (.webauthn (.login input (.update id newCounter))) →
        (CounterStored S q i id newCounter ↔ newCounter < 2 ^ 31) :=
  ⟨fun _ _ before => inserted_counter_iff run step before,
    fun _ _ _ _ before accepted hrow own => existing_counter_iff run step before accepted hrow own,
    fun _ _ _ before => updated_counter_iff run step before⟩

/-! ## The first counter that is too large -/

namespace CounterScript

/-- The counter that a response carries, in two units of 16 bits. -/
def carried (r : WebauthnResponse) : Nat :=
  (r.body.headD 0).toNat * 2 ^ 16 + (r.body.tail.headD 0).toNat

/-- The library of the other scripts, for such responses. -/
def library : WebauthnLibrary where
  generateRegistrationOptions _ _ _ _ _ random := ⟨[.ofNat (random 0)], []⟩
  verifyRegistrationResponse response expected :=
    some (if response.body.tail.tail = expected.challenge then
      some ⟨response.id, [], carried response, none, false, false⟩ else none)
  generateAuthenticationOptions _ _ random := ⟨[.ofNat (random 0)], []⟩
  verifyAuthenticationResponse response expected stored :=
    some (if response.body.tail.tail = expected.challenge ∧
      ((carried response = 0 ∧ stored.counter = 0) ∨ stored.counter < carried response) then
        some (carried response) else none)
  hashCredentialId := id

def services : Services :=
  { CeremonyScript.services with webauthn := { CeremonyScript.services.webauthn with library } }

def response (high low n : Nat) : VerifyInput :=
  ⟨CeremonyScript.app, CeremonyScript.user, ⟨text "cred", [.ofNat high, .ofNat low, .ofNat n]⟩⟩

/-- A registration with the counter 2³¹ - 1, up to its last statement. -/
def registering : List (Act Operation ServiceMove) :=
  [CeremonyScript.options .register] ++ CeremonyScript.turns 0 2 1000 ++
  [.arrive (.webauthn (.registerVerify (response 32767 65535 1000)))] ++
  CeremonyScript.turns 1 5 1100

/-- Then a login with the counter 2³¹, up to its last statement. -/
def loggingIn : List (Act Operation ServiceMove) :=
  registering ++ CeremonyScript.turns 1 1 1200 ++
  [CeremonyScript.options .login] ++ CeremonyScript.turns 2 2 2000 ++
  [.arrive (.webauthn (.loginVerify (response 32768 0 2000)))] ++ CeremonyScript.turns 3 5 2100

def result (acts : List (Act Operation ServiceMove)) :
    Option (List (Deployment × Act Operation ServiceMove) × Deployment) :=
  exec (Pool.step (deployment services)) ⟨.empty, []⟩ acts

theorem run {acts : List (Act Operation ServiceMove)} (h : (result acts).isSome = true) :
    DeploymentRun services ((result acts).get h).1 ((result acts).get h).2 :=
  run_of_exec (Option.some_get h).symm

def nextTurn (p : Deployment) (i n : Nat) : Option Deployment :=
  p.step (deployment services) (.turn i (.statement (CeremonyScript.worldAt n)))

theorem registering_runs : (result registering).isSome = true := by decide +kernel

theorem loggingIn_runs : (result loggingIn).isSome = true := by decide +kernel

theorem registering_next :
    (nextTurn ((result registering).get registering_runs).2 1 1200).isSome = true := by
  decide +kernel

theorem loggingIn_next :
    (nextTurn ((result loggingIn).get loggingIn_runs).2 3 2200).isSome = true := by
  decide +kernel

end CounterScript

/-- The credential was stored with 2³¹ - 1. The library accepts the next login, which has the legal
counter 2³¹, and the login fails. -/
theorem legal_counter_not_stored : ∃ log p q id,
    DeploymentRun CounterScript.services log p ∧
    p.step (deployment CounterScript.services)
      (.turn 3 (.statement (CeremonyScript.worldAt 2200))) = some q ∧
    p.calls[3]? = some (.webauthn (.login (CounterScript.response 32768 0 2000)
      (.update id (2 ^ 31)))) ∧
    p.store.webauthn.credentials.map (·.signCount) = [2 ^ 31 - 1] ∧
    q.calls[3]? = some (.webauthn (.login (CounterScript.response 32768 0 2000)
      (.done (.error internal)))) ∧
    q.store.webauthn.credentials.map (·.signCount) = [2 ^ 31 - 1] ∧
    ¬CounterStored CounterScript.services q 3 id (2 ^ 31) := by
  have run := CounterScript.run CounterScript.loggingIn_runs
  have step := (Option.some_get CounterScript.loggingIn_next).symm
  have failed : ((CounterScript.nextTurn ((CounterScript.result CounterScript.loggingIn).get
      CounterScript.loggingIn_runs).2 3 2200).get CounterScript.loggingIn_next).calls[3]? =
      some (.webauthn (.login (CounterScript.response 32768 0 2000)
        (.done (.error internal)))) := by decide +kernel
  refine ⟨_, _, _, newId .webauthnCredential 1200, run, step, by decide +kernel, by decide +kernel,
    failed, by decide +kernel, fun h => ?_⟩
  obtain ⟨c, hc, ended⟩ := h.answered
  obtain rfl := Job.webauthn.inj (Option.some.inj (failed.symm.trans hc))
  cases ended

/-- The registration before it. -/
theorem counter_stored_script : ∃ log p q,
    DeploymentRun CounterScript.services log p ∧
    p.step (deployment CounterScript.services)
      (.turn 1 (.statement (CeremonyScript.worldAt 1200))) = some q ∧
    CounterStored CounterScript.services q 1 (newId .webauthnCredential 1200) (2 ^ 31 - 1) := by
  have run := CounterScript.run CounterScript.registering_runs
  have step := (Option.some_get CounterScript.registering_next).symm
  refine ⟨_, _, _, run, step, ((counter_stored_iff run step).1
    (CounterScript.response 32767 65535 1000)
    ⟨text "cred", [], 2 ^ 31 - 1, none, false, false⟩ (by decide +kernel)).mpr ⟨by decide, ?_, ?_⟩⟩
  · decide +kernel
  · decide +kernel

end Syrotp
