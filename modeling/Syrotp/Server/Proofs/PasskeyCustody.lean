import Syrotp.Server.Proofs.ChallengeChoice
import Syrotp.Server.Proofs.CounterRange

/-!
# Where a passkey login comes from

A login that succeeds goes back to two ceremonies of the same user: its own, and the registration
that stored the credential. In both the library accepted the response for a challenge that had been
issued to that user for that purpose.
-/

namespace Syrotp

variable {S : Services} {log : List (Deployment × Act Operation ServiceMove)} {p : Deployment}

/-- At some step a challenge was issued to the user of a verify call. -/
def ChallengeIssued (S : Services) (log : List (Deployment × Act Operation ServiceMove))
    (input : VerifyInput) (purpose : ChallengePurpose) (challenge : Text) : Prop :=
  ∃ e ∈ log, ∃ options row, Issues S e options row ∧ row.challenge = challenge ∧
    options.appId = input.appId ∧ options.clientRef = input.clientRef ∧ options.purpose = purpose

theorem ChallengeIssued.later {input : VerifyInput} {purpose : ChallengePurpose} {challenge : Text}
    (h : ChallengeIssued S log input purpose challenge)
    (more : List (Deployment × Act Operation ServiceMove)) :
    ChallengeIssued S (log ++ more) input purpose challenge := by
  obtain ⟨e, he, rest⟩ := h
  exact ⟨e, List.mem_append_left _ he, rest⟩

/-- A challenge that a call holds was issued to its user. -/
theorem holding_issued (run : DeploymentRun S log p) {i : Nat} {c : WebauthnCall}
    (hi : p.calls[i]? = some (.webauthn c)) {input : VerifyInput} {purpose : ChallengePurpose}
    {challenge : Text} (holds : c.holding = some ⟨input, purpose, some challenge⟩) :
    ChallengeIssued S log input purpose challenge := by
  obtain ⟨now, candidates, row?, e₁, e₂, order, _, picked, same⟩ :=
    holding_chosen run i _ hi c _ rfl holds
  obtain ⟨w, c₂, _, _, _, chosen⟩ := picked
  cases row? with
  | none => cases same
  | some row =>
    have text : challenge = row.challenge := Option.some.inj same
    have logged : e₂ ∈ log := order.subset (by simp)
    obtain ⟨log₁, _, log₂, rfl, before, _, _⟩ := run.split logged
    obtain ⟨mem, _, active, _⟩ := mem_freeChallenges.mp (newestChallenge_mem chosen).1
    obtain ⟨app, ref, purpose', _, _⟩ := activeChallenge_iff.mp active
    obtain ⟨e₀, he₀, options, issued⟩ := stored_issued before row mem
    have created := issued
    obtain ⟨_, _, _, _, _, _, _, created⟩ := created
    refine ⟨e₀, List.mem_append_left _ he₀, options, _, issued, text.symm, ?_, ?_, ?_⟩
    · exact (congrArg WebauthnChallenge.appId created).symm.trans app
    · exact (congrArg WebauthnChallenge.clientRef created).symm.trans ref
    · exact (congrArg WebauthnChallenge.purpose created).symm.trans purpose'

/-! ## The credential -/

/-- The library accepted a registration, and the row holds what it said of it. -/
def Attests (S : Services) (log : List (Deployment × Act Operation ServiceMove))
    (registration : VerifyInput) (row : WebauthnCredential) : Prop :=
  ∃ expected info, ChallengeIssued S log registration .register expected.challenge ∧
    S.webauthn.library.verifyRegistrationResponse registration.response expected =
      some (some info) ∧
    row.credentialIdHash = S.webauthn.library.hashCredentialId info.credentialId ∧
    row.publicKey = info.publicKey

/-- What a call inserts has been attested. -/
theorem inserting_attests (run : DeploymentRun S log p) {i : Nat} {input : VerifyInput}
    {info : RegistrationInfo} {w : World}
    (hi : p.calls[i]? = some (.webauthn (.register input (.insert info)))) :
    Attests S log input (info.row S.webauthn w input) := by
  obtain ⟨e, he, _, challenge, _, there, accepted⟩ := inserting_attested run i _ hi input info rfl
  obtain ⟨log₁, _, log₂, rfl, before, _, _⟩ := run.split he
  unfold checkRegistration at accepted
  cases expects : expectation S.webauthn challenge with
  | error e =>
    rw [expects] at accepted
    cases accepted
  | ok expected =>
    simp only [expects] at accepted
    split at accepted
    · cases accepted
    · cases accepted
    · next info' verified =>
      cases accepted
      refine ⟨expected, info, ?_, verified, rfl, rfl⟩
      apply ChallengeIssued.later
      apply holding_issued before there
      rw [WebauthnCall.holding, (expectation_challenge expects).1]

/-- Every stored credential was attested in a ceremony of its user. -/
theorem credential_attested (run : DeploymentRun S log p) :
    ∀ row ∈ p.store.webauthn.credentials, ∃ registration : VerifyInput,
      registration.appId = row.appId ∧ registration.clientRef = row.clientRef ∧
        Attests S log registration row := by
  induction run with
  | start =>
    intro row h
    cases h
  | @next log q q' a run step ih =>
    intro row hr
    -- what an update leaves of a row is all that is said of it
    have old : ∀ row' ∈ q.store.webauthn.credentials, row'.appId = row.appId →
        row'.clientRef = row.clientRef → row'.credentialIdHash = row.credentialIdHash →
        row'.publicKey = row.publicKey → ∃ registration : VerifyInput,
          registration.appId = row.appId ∧ registration.clientRef = row.clientRef ∧
            Attests S (log ++ [(q, a)]) registration row := by
      intro row' hr' app ref hash key
      obtain ⟨registration, app', ref', expected, info, issued, verified, hash', key'⟩ := ih row' hr'
      exact ⟨registration, app'.trans app, ref'.trans ref, expected, info, issued.later _, verified,
        hash.symm.trans hash', key.symm.trans key'⟩
    rcases webauthn_stored step with same | ⟨i, m, w, c, c', write, rfl, hw, hi, ran, same⟩
    · rw [same] at hr
      exact old row hr rfl rfl rfl rfl
    · rw [same] at hr
      cases ran with
      | @insertCredential input info fresh =>
        rcases List.mem_append.mp hr with before | new
        · exact old row before rfl rfl rfl rfl
        · obtain rfl := List.mem_singleton.mp new
          obtain ⟨expected, info', issued, rest⟩ := inserting_attests run hi
          exact ⟨input, rfl, rfl, expected, info', issued.later _, rest⟩
      | updateCredential fits =>
        rcases mem_updateWhere_cases hr with ⟨row', before, _, rfl⟩ | ⟨before, _⟩
        · exact old row' before rfl rfl rfl rfl
        · exact old row before rfl rfl rfl rfl
      | _ => exact old row hr rfl rfl rfl rfl

/-! ## The login -/

/-- The stages after the library has accepted the response. -/
def LoginPhase.passed : LoginPhase → Bool
  | .update .. => true
  | .done (.ok _) => true
  | _ => false

/-- The library accepts the response of a login for a stored credential. -/
structure Asserts (X : Webauthn) (db : WebauthnDb) (input : VerifyInput) (challenge : Option Text)
    (row : WebauthnCredential) (expected : Expected) (newCounter : Nat) : Prop where
  found : db.credentials.find? (loginCredential X input) = some row
  expects : expectation X challenge = .ok expected
  accepted : checkAssertion X expected input.response row = .ok newCounter

/-- There is no other way to these stages. -/
theorem verifyLogin_passed {X : Webauthn} {db : WebauthnDb} {held : Id → Bool} {w : World}
    {input : VerifyInput} {phase phase' : LoginPhase} {write : Option WebauthnWrite}
    (h : verifyLogin X db held w input phase = some (phase', write))
    (passed : phase'.passed = true) : phase.passed = true ∨
      ∃ challenge row expected newCounter, phase = .selectCredential challenge ∧
        Asserts X db input challenge row expected newCounter := by
  cases phase with
  | start =>
    simp only [verifyLogin] at h
    split at h <;> cases h <;> cases passed
  | consume consuming =>
    simp only [verifyLogin] at h
    split at h <;> cases h <;> cases passed
  | selectCredential challenge =>
    cases challenge with
    | none =>
      cases h
      cases passed
    | some c =>
      simp only [verifyLogin] at h
      by_cases empty : c = []
      · rw [if_pos empty] at h
        cases h
        cases passed
      · rw [if_neg empty] at h
        cases found : db.credentials.find? (loginCredential X input) with
        | none =>
          rw [found] at h
          cases h
          cases passed
        | some row =>
          cases expects : expectation X (some c) with
          | error e =>
            simp only [found, expects] at h
            cases h
            cases passed
          | ok expected =>
            cases accepted : checkAssertion X expected input.response row with
            | error e =>
              simp only [found, expects, accepted] at h
              cases h
              cases passed
            | ok newCounter =>
              exact .inr ⟨_, row, expected, newCounter, rfl, found, expects, accepted⟩
  | update id newCounter => exact .inl rfl
  | done result => cases h
  | failed => cases h

/-- A login that has passed was accepted at a step of its own. -/
def CeremonyPassed (S : Services) (log : List (Deployment × Act Operation ServiceMove)) (i : Nat)
    (job : Job) : Prop :=
  ∀ input phase, job = .webauthn (.login input phase) → phase.passed = true →
    ∃ e ∈ log, ∃ w challenge row expected newCounter, e.2 = .turn i (.statement w) ∧
      e.1.calls[i]? = some (.webauthn (.login input (.selectCredential challenge))) ∧
      Asserts S.webauthn e.1.store.webauthn input challenge row expected newCounter

theorem login_passed (run : DeploymentRun S log p) :
    ∀ i job, p.calls[i]? = some job → CeremonyPassed S log i job := by
  refine Pool.call_history ?frame ?first ?admitted ?spawned ?turned run
  case frame =>
    intro log q a i job _ K input phase same passed
    obtain ⟨e, he, facts⟩ := K input phase same passed
    exact ⟨e, List.mem_append_left _ he, facts⟩
  case first =>
    intro i job h
    cases h
  case admitted =>
    intro d r job h log i _ input phase same passed
    subst same
    cases r with
    | webauthn r =>
      cases r <;> cases h
      cases passed
    | core r =>
      obtain ⟨_, _, same⟩ := Option.map_eq_some_iff.mp h
      cases same
    | _ => cases h
  case spawned =>
    intro log q i job m t _ _ h n hn log' i' _ input phase same passed
    subst same
    cases ceremony_turn h with
    | aside other same call spawned => exact nomatch spawned _ hn
    | _ => exact absurd hn List.not_mem_nil
  case turned =>
    intro log q i job m t run hi h K input phase same passed
    cases job with
    | webauthn c =>
      cases m with
      | statement w =>
        obtain ⟨⟨c', write⟩, stated, rfl⟩ := Option.map_eq_some_iff.mp h
        obtain rfl := Job.webauthn.inj same
        cases c with
        | login input' phase' =>
          obtain ⟨⟨next, write'⟩, ran, same⟩ := Option.map_eq_some_iff.mp stated
          cases same
          rcases verifyLogin_passed ran passed with before | ⟨challenge, row, expected, n, rfl, ok⟩
          · obtain ⟨e, he, facts⟩ := K input phase' rfl before
            exact ⟨e, List.mem_append_left _ he, facts⟩
          · exact ⟨_, List.mem_append_right _ (List.mem_singleton_self _), w, challenge, row,
              expected, n, rfl, hi, ok⟩
        | _ =>
          obtain ⟨_, _, same⟩ := Option.map_eq_some_iff.mp stated
          cases same
      | lost w =>
        obtain ⟨_, _, rfl⟩ := Option.map_eq_some_iff.mp h
        cases c <;> cases same
        cases passed
      | _ =>
        obtain ⟨_, h⟩ := Option.ite_none_right_eq_some.mp h
        obtain rfl := Option.some.inj h
        cases c <;> cases same
        cases passed
    | _ =>
      cases ceremony_turn h with
      | aside other _ call => exact nomatch (congrArg Job.webauthn? same).symm.trans call

/-- In every run a login that succeeds was accepted by the library for a challenge that had been
issued to its user for a login, with a credential of that user whose key the library had before
accepted for a challenge that had been issued to the same user for a registration. -/
theorem logins_trace_to_registrations (run : DeploymentRun S log p) {i : Nat} {input : VerifyInput}
    (ok : p.calls[i]? = some (.webauthn (.login input (.done (.ok ()))))) :
    ∃ log₁ e log₂ w, log = log₁ ++ e :: log₂ ∧ e.2 = .turn i (.statement w) ∧
      ∃ row ∈ e.1.store.webauthn.credentials,
        row.appId = input.appId ∧ row.clientRef = input.clientRef ∧
        row.credentialIdHash = S.webauthn.library.hashCredentialId input.response.id ∧
        (∃ expected newCounter, ChallengeIssued S log₁ input .login expected.challenge ∧
          S.webauthn.library.verifyAuthenticationResponse input.response expected
            ⟨input.response.id, row.publicKey, row.signCount, row.transports⟩ =
              some (some newCounter)) ∧
        ∃ registration : VerifyInput, registration.appId = input.appId ∧
          registration.clientRef = input.clientRef ∧ Attests S log₁ registration row := by
  obtain ⟨e, he, w, challenge, row, expected, n, act, there, found, expects, accepted⟩ :=
    login_passed run i _ ok input _ rfl rfl
  obtain ⟨log₁, _, log₂, split, before, _, _⟩ := run.split he
  have mem := List.mem_of_find?_eq_some found
  have mine : loginCredential S.webauthn input row = true := List.find?_some found
  obtain ⟨app, ref, hash⟩ := of_decide_eq_true mine
  obtain ⟨registration, app', ref', attests⟩ := credential_attested before row mem
  refine ⟨log₁, e, log₂, w, split, act, row, mem, app, ref, hash, ⟨expected, n, ?_, ?_⟩,
    registration, app'.trans app, ref'.trans ref, attests⟩
  · apply holding_issued before there
    rw [WebauthnCall.holding, (expectation_challenge expects).1]
  · unfold checkAssertion at accepted
    split at accepted
    · cases accepted
    · cases accepted
    · next verified =>
      cases accepted
      exact verified

/-- The login with the greater counter, in a run where two overlap. -/
theorem logins_trace_to_registrations_script : ∃ log₁ registration row,
    Attests CeremonyScript.services log₁ registration row ∧
      registration.clientRef = CeremonyScript.user ∧
      row.credentialIdHash = CeremonyScript.services.webauthn.library.hashCredentialId (text "cred") := by
  have run := CeremonyScript.run CeremonyScript.inOrder_runs
  obtain ⟨log₁, _, _, _, _, _, row, _, _, _, hash, _, registration, _, ref, attests⟩ :=
    @logins_trace_to_registrations _ _ _ run 4 (CeremonyScript.response 7 3000)
      (by decide +kernel)
  exact ⟨log₁, registration, row, attests, ref, hash⟩

end Syrotp
