import Syrotp.Server.Proofs.Challenges

/-!
# Registrations and logins

`verifyRegister` takes a credential for registered if the app has it, and answers with success.
`verifyLogin` looks it up for the app and the client reference. So what a registration promises
depends on the client reference that the credential was stored under first.
-/

namespace Syrotp

variable {S : Services} {X : Webauthn} {db : WebauthnDb} {held : Id → Bool} {w : World}

/-! ## Steps of a registration -/

/-- The key that a registration is compared by. -/
def RegistrationInfo.lookup (X : Webauthn) (input : VerifyInput) (info : RegistrationInfo) :
    Id × Text :=
  (input.appId, X.library.hashCredentialId info.credentialId)

/-- What a statement of `verifyRegister` does. -/
inductive RegisterStep (X : Webauthn) (db : WebauthnDb) (w : World) (input : VerifyInput) :
    RegisterPhase → RegisterPhase → Option WebauthnWrite → Prop
  | consumes {phase phase' : RegisterPhase} {write : Option WebauthnWrite}
      (source : phase = .start ∨ ∃ consuming, phase = .consume consuming)
      (early : (∃ consuming, phase' = .consume consuming) ∨
        ∃ challenge, phase' = .selectExisting challenge) :
      RegisterStep X db w input phase phase' write
  | refused {phase : RegisterPhase} {e : ApiError}
      (reason : ∀ info, phase = .insert info →
        hasKey (·.id) (info.row X w input).id db.credentials = true ∨
          hasKey (·.lookup) (info.lookup X input) db.credentials = true ∨
            fitsInteger info.counter = false) :
      RegisterStep X db w input phase (.done (.error e)) none
  /-- The app has the credential. -/
  | existing {challenge : Option Text} {info : RegistrationInfo}
      (accepted : checkRegistration X challenge input.response = .ok info)
      (known : hasKey (·.lookup) (info.lookup X input) db.credentials = true) :
      RegisterStep X db w input (.selectExisting challenge) (.done (.ok info.credentialId)) none
  | accepts {challenge : Option Text} {info : RegistrationInfo}
      (accepted : checkRegistration X challenge input.response = .ok info)
      (unknown : hasKey (·.lookup) (info.lookup X input) db.credentials = false) :
      RegisterStep X db w input (.selectExisting challenge) (.insert info) none
  | inserts {info : RegistrationInfo}
      (freshId : hasKey (·.id) (info.row X w input).id db.credentials = false)
      (freshKey : hasKey (·.lookup) (info.lookup X input) db.credentials = false)
      (fits : fitsInteger info.counter = true) :
      RegisterStep X db w input (.insert info) (.done (.ok info.credentialId))
        (some (.insertCredential (info.row X w input)))

theorem register_cases {input : VerifyInput} {phase phase' : RegisterPhase}
    {write : Option WebauthnWrite}
    (h : verifyRegister X db held w input phase = some (phase', write)) :
    RegisterStep X db w input phase phase' write := by
  cases phase with
  | start =>
    obtain ⟨-, same⟩ | ⟨-, same⟩ := ite_eq_iff.mp h
    · obtain ⟨rfl, rfl⟩ := Prod.mk.inj (Option.some.inj same)
      exact .refused (by rintro _ ⟨⟩)
    · obtain ⟨rfl, rfl⟩ := Prod.mk.inj (Option.some.inj same)
      exact .consumes (.inl rfl) (.inl ⟨_, rfl⟩)
  | consume phase =>
    simp only [verifyRegister] at h
    split at h
    · obtain ⟨rfl, rfl⟩ := Prod.mk.inj (Option.some.inj h)
      exact .consumes (.inr ⟨_, rfl⟩) (.inl ⟨_, rfl⟩)
    · obtain ⟨rfl, rfl⟩ := Prod.mk.inj (Option.some.inj h)
      exact .consumes (.inr ⟨_, rfl⟩) (.inr ⟨_, rfl⟩)
  | selectExisting challenge =>
    simp only [verifyRegister] at h
    split at h
    · obtain ⟨rfl, rfl⟩ := Prod.mk.inj (Option.some.inj h)
      exact .refused (by rintro _ ⟨⟩)
    · next accepted =>
      obtain ⟨known, same⟩ | ⟨unknown, same⟩ := ite_eq_iff.mp h
      · obtain ⟨rfl, rfl⟩ := Prod.mk.inj (Option.some.inj same)
        exact .existing accepted known
      · obtain ⟨rfl, rfl⟩ := Prod.mk.inj (Option.some.inj same)
        exact .accepts accepted (Bool.eq_false_iff.mpr unknown)
  | insert info =>
    simp only [verifyRegister] at h
    obtain ⟨taken, same⟩ | ⟨fresh, same⟩ := ite_eq_iff.mp h
    · obtain ⟨rfl, rfl⟩ := Prod.mk.inj (Option.some.inj same)
      refine .refused ?_
      rintro _ ⟨⟩
      simp only [Bool.or_eq_true, Bool.not_eq_true', or_assoc] at taken
      exact taken
    · obtain ⟨rfl, rfl⟩ := Prod.mk.inj (Option.some.inj same)
      simp only [Bool.or_eq_true, Bool.not_eq_true', not_or, Bool.not_eq_true,
        Bool.not_eq_false] at fresh
      exact .inserts fresh.1.1 fresh.1.2 fresh.2
  | done result => cases h
  | failed => cases h

/-- A statement of a registration, as a step of the deployment. -/
theorem register_turn {p q : Deployment} {i : Nat} {w : ServiceWorld} {input : VerifyInput}
    {phase : RegisterPhase} (step : p.step (deployment S) (.turn i (.statement w)) = some q)
    (before : p.calls[i]? = some (.webauthn (.register input phase))) :
    ∃ phase' write, q.calls[i]? = some (.webauthn (.register input phase')) ∧
      RegisterStep S.webauthn p.store.webauthn w.toWorld input phase phase' write ∧
      q.store.webauthn = p.store.webauthn.commitOption write := by
  obtain ⟨job, t, hi, turn, rfl⟩ := Pool.step_turn step
  obtain rfl := Option.some.inj (hi.symm.trans before)
  have after := Pool.turned_self (t := t) hi
  obtain ⟨⟨c', write⟩, stated, rfl⟩ := Option.map_eq_some_iff.mp turn
  obtain ⟨⟨phase', write'⟩, ran, same⟩ := Option.map_eq_some_iff.mp stated
  obtain ⟨rfl, rfl⟩ := Prod.mk.inj same
  exact ⟨phase', write', after, register_cases ran, rfl⟩

/-- A registration that ends without an error has had its statement answered. -/
theorem registered_turn {p q : Deployment} {i : Nat} {m : ServiceMove} {input : VerifyInput}
    {phase : RegisterPhase} {credentialId : Text}
    (step : p.step (deployment S) (.turn i m) = some q)
    (before : p.calls[i]? = some (.webauthn (.register input phase)))
    (after : q.calls[i]? = some (.webauthn (.register input (.done (.ok credentialId))))) :
    ∃ w : ServiceWorld, ∃ write,
      RegisterStep S.webauthn p.store.webauthn w.toWorld input phase (.done (.ok credentialId))
        write ∧ q.store.webauthn = p.store.webauthn.commitOption write := by
  obtain ⟨job, t, hi, turn, rfl⟩ := Pool.step_turn step
  obtain rfl := Option.some.inj (hi.symm.trans before)
  have ended := Option.some.inj ((Pool.turned_self hi).symm.trans after)
  cases ceremony_turn turn with
  | answered =>
    obtain ⟨phase', write, now, registers, stored⟩ := register_turn step before
    obtain ⟨_, rfl⟩ := WebauthnCall.register.inj (Job.webauthn.inj
      (Option.some.inj (now.symm.trans after)))
    exact ⟨_, write, registers, stored⟩
  | lost => cases ended
  | dropped => cases ended
  | aside other => cases other

/-! ## What a login finds -/

/-- The table holds the credential for the app and the client reference, and it is what the lookup
of a login for the two gives. -/
def LoginFinds (X : Webauthn) (db : WebauthnDb) (input : VerifyInput) (credentialId : Text) : Prop :=
  ∃ row ∈ db.credentials, row.appId = input.appId ∧ row.clientRef = input.clientRef ∧
    row.credentialIdHash = X.library.hashCredentialId credentialId ∧
    ∀ login : VerifyInput, login.appId = input.appId → login.clientRef = input.clientRef →
      login.response.id = credentialId →
        db.credentials.find? (loginCredential X login) = some row

theorem loginCredential_iff {login : VerifyInput} {row : WebauthnCredential} :
    loginCredential X login row = true ↔
      row.lookup = (login.appId, X.library.hashCredentialId login.response.id) ∧
        row.clientRef = login.clientRef := by
  simp only [loginCredential, WebauthnCredential.lookup, decide_eq_true_eq, Prod.mk.injEq]
  tauto

/-- The app has one row of a credential at most, so the row itself decides. -/
theorem loginFinds_iff {input : VerifyInput} {credentialId : Text} (I : db.Inv) :
    LoginFinds X db input credentialId ↔ ∃ row ∈ db.credentials,
      row.lookup = (input.appId, X.library.hashCredentialId credentialId) ∧
        row.clientRef = input.clientRef := by
  constructor
  · rintro ⟨row, hrow, app, client, hash, -⟩
    exact ⟨row, hrow, Prod.ext app hash, client⟩
  · rintro ⟨row, hrow, key, client⟩
    obtain ⟨app, hash⟩ := Prod.mk.inj key
    refine ⟨row, hrow, app, client, hash, ?_⟩
    intro login sameApp sameRef sameId
    have hit : loginCredential X login row = true := by
      rw [loginCredential_iff, sameApp, sameRef, sameId]
      exact ⟨key, client⟩
    cases found : db.credentials.find? (loginCredential X login) with
    | none => exact absurd hit (List.find?_eq_none.mp found row hrow)
    | some row' =>
      have key' := (loginCredential_iff.mp (List.find?_some found)).1
      rw [sameApp, sameId] at key'
      exact congrArg some (eq_of_key I.lookups (List.mem_of_find?_eq_some found) hrow
        (key'.trans key.symm))

/-- A registration that answers with success leaves a credential that a login can find if and only
if the app did not have it for another client reference. -/
theorem registered_found_iff {log : List (Deployment × Act Operation ServiceMove)}
    {p q : Deployment} {i : Nat} {m : ServiceMove} {input : VerifyInput} {phase : RegisterPhase}
    {credentialId : Text} (run : DeploymentRun S log p)
    (step : p.step (deployment S) (.turn i m) = some q)
    (before : p.calls[i]? = some (.webauthn (.register input phase)))
    (after : q.calls[i]? = some (.webauthn (.register input (.done (.ok credentialId))))) :
    LoginFinds S.webauthn q.store.webauthn input credentialId ↔
      ∀ row ∈ p.store.webauthn.credentials,
        row.lookup = (input.appId, S.webauthn.library.hashCredentialId credentialId) →
          row.clientRef = input.clientRef := by
  have I := (DeploymentRun.inv run).webauthn
  rw [loginFinds_iff (DeploymentRun.inv (run.next step)).webauthn]
  obtain ⟨w, write, registers, stored⟩ := registered_turn step before after
  rw [stored]
  cases registers with
  | consumes source early =>
    obtain ⟨_, same⟩ | ⟨_, same⟩ := early
    · cases same
    · cases same
  | existing accepted known =>
    obtain ⟨row, hrow, key⟩ := hasKey_iff.mp known
    constructor
    · rintro ⟨row', hrow', key', client⟩ other hother keyOther
      rwa [eq_of_key I.lookups hother hrow' (keyOther.trans key'.symm)]
    · exact fun same => ⟨row, hrow, key, same row hrow key⟩
  | @inserts info freshId freshKey fits =>
    constructor
    · intro _ row hrow key
      exact absurd key (hasKey_eq_false.mp freshKey row hrow)
    · intro _
      exact ⟨info.row S.webauthn w.toWorld input, List.mem_append_right _ (List.mem_singleton_self _),
        rfl, rfl⟩

/-! ## One credential, two users -/

namespace CeremonyScript

def otherUser : Text := text "user_43"

/-- The authenticator of `user_42` answers a challenge that was made for another client reference. -/
def otherResponse (counter n : Nat) : VerifyInput := { response counter n with clientRef := otherUser }

/-- The credential is registered for `user_42`, and up to its last statement for `user_43`. -/
def reRegistered : List (Act Operation ServiceMove) :=
  [options .register] ++ turns 0 2 1000 ++
  [.arrive (.webauthn (.registerVerify (response 0 1000)))] ++ turns 1 6 1100 ++
  [.arrive (.webauthn (.options ⟨.register, app, otherUser, none⟩))] ++ turns 2 2 2000 ++
  [.arrive (.webauthn (.registerVerify (otherResponse 0 2000)))] ++ turns 3 4 2100

/-- The first five statements of the registration for `user_42`. -/
def registering : List (Act Operation ServiceMove) :=
  [options .register] ++ turns 0 2 1000 ++
  [.arrive (.webauthn (.registerVerify (response 0 1000)))] ++ turns 1 5 1100

theorem reRegistered_runs : (result reRegistered).isSome = true := by decide +kernel

theorem registering_runs : (result registering).isSome = true := by decide +kernel

/-- The next statement of the job at position `i`. -/
def nextTurn (p : Deployment) (i n : Nat) : Option Deployment :=
  p.step (deployment services) (.turn i (.statement (worldAt n)))

theorem reRegistered_next :
    (nextTurn ((result reRegistered).get reRegistered_runs).2 3 2200).isSome = true := by
  decide +kernel

theorem registering_next :
    (nextTurn ((result registering).get registering_runs).2 1 1200).isSome = true := by
  decide +kernel

end CeremonyScript

/-- `user_43` is told that the credential is registered, and only `user_42` has it. -/
theorem registered_not_found : ∃ log p q,
    DeploymentRun CeremonyScript.services log p ∧
    p.step (deployment CeremonyScript.services)
      (.turn 3 (.statement (CeremonyScript.worldAt 2200))) = some q ∧
    p.calls[3]? = some (.webauthn (.register (CeremonyScript.otherResponse 0 2000)
      (.selectExisting (some [2000])))) ∧
    q.calls[3]? = some (.webauthn (.register (CeremonyScript.otherResponse 0 2000)
      (.done (.ok (text "cred"))))) ∧
    q.store.webauthn.credentials.map (·.clientRef) = [CeremonyScript.user] ∧
    ¬LoginFinds CeremonyScript.services.webauthn q.store.webauthn
      (CeremonyScript.otherResponse 0 2000) (text "cred") := by
  have run := CeremonyScript.run CeremonyScript.reRegistered_runs
  have step := (Option.some_get CeremonyScript.reRegistered_next).symm
  have holds : ((CeremonyScript.nextTurn ((CeremonyScript.result CeremonyScript.reRegistered).get
      CeremonyScript.reRegistered_runs).2 3 2200).get
        CeremonyScript.reRegistered_next).store.webauthn.credentials.map (·.clientRef) =
      [CeremonyScript.user] := by decide +kernel
  refine ⟨_, _, _, run, step, by decide +kernel, by decide +kernel, holds, ?_⟩
  rintro ⟨row, hrow, _, client, _⟩
  have stored := List.mem_map_of_mem (f := (·.clientRef)) hrow
  rw [holds, List.mem_singleton, client] at stored
  exact absurd stored (by decide)

/-- The first registration of the same credential. -/
theorem registered_found_script : ∃ log p q,
    DeploymentRun CeremonyScript.services log p ∧
    p.step (deployment CeremonyScript.services)
      (.turn 1 (.statement (CeremonyScript.worldAt 1200))) = some q ∧
    LoginFinds CeremonyScript.services.webauthn q.store.webauthn
      (CeremonyScript.response 0 1000) (text "cred") := by
  have run := CeremonyScript.run CeremonyScript.registering_runs
  have step := (Option.some_get CeremonyScript.registering_next).symm
  have inserting : ((CeremonyScript.result CeremonyScript.registering).get
      CeremonyScript.registering_runs).2.calls[1]? = some (.webauthn (.register
        (CeremonyScript.response 0 1000) (.insert ⟨text "cred", [], 0, none, false, false⟩))) := by
    decide +kernel
  refine ⟨_, _, _, run, step,
    (registered_found_iff run step inserting (by decide +kernel)).mpr ?_⟩
  have none : ((CeremonyScript.result CeremonyScript.registering).get
      CeremonyScript.registering_runs).2.store.webauthn.credentials = [] := by decide +kernel
  rw [none]
  exact List.forall_mem_nil _

end Syrotp
