import Syrotp.Server.Deployment

/-!
# What a turn does in the tables of WebAuthn

The two ceremonies consume a challenge in the same way, so a verify call is looked at as an input,
a purpose and the place where it is. `CeremonyStep` lists what a statement of a ceremony can do,
`CeremonyTurn` what a turn of any job can.
-/

namespace Syrotp

/-! ## Verify calls -/

/-- A call inside `consumeChallenge`. -/
structure Consuming where
  input : VerifyInput
  purpose : ChallengePurpose
  phase : ConsumePhase
  deriving DecidableEq, Repr

def WebauthnCall.consuming : WebauthnCall → Option Consuming
  | .register input (.consume phase) => some ⟨input, .register, phase⟩
  | .login input (.consume phase) => some ⟨input, .login, phase⟩
  | _ => none

/-- What `consumeChallenge` has returned to a call that has not used it yet. -/
structure Holding where
  input : VerifyInput
  purpose : ChallengePurpose
  challenge : Option Text
  deriving DecidableEq, Repr

def WebauthnCall.holding : WebauthnCall → Option Holding
  | .register input (.selectExisting challenge) => some ⟨input, .register, challenge⟩
  | .login input (.selectCredential challenge) => some ⟨input, .login, challenge⟩
  | _ => none

/-- A login that has its answer from the library and has not written it yet: the credential and
its new counter. -/
def WebauthnCall.updating : WebauthnCall → Option (VerifyInput × Id × Nat)
  | .login input (.update id newCounter) => some (input, id, newCounter)
  | _ => none

def Job.webauthn? : Job → Option WebauthnCall
  | .webauthn c => some c
  | _ => none

theorem Job.eq_of_webauthn? {job : Job} {c : WebauthnCall} (h : job.webauthn? = some c) :
    job = .webauthn c := by
  cases job with
  | webauthn x => exact congrArg Job.webauthn (Option.some.inj h)
  | _ => exact nomatch h

/-- Only a call inside `consumeChallenge` has locked a challenge. -/
theorem WebauthnCall.locks_eq (c : WebauthnCall) :
    c.locks = c.consuming.elim [] (·.phase.locks) := by
  cases c with
  | options input phase => rfl
  | register input phase => cases phase <;> rfl
  | login input phase => cases phase <;> rfl

theorem WebauthnCall.holding_of_consuming (c : WebauthnCall) {x : Consuming} {y : Holding}
    (hx : c.consuming = some x) : c.holding ≠ some y := by
  intro hy
  cases c with
  | options input phase => exact nomatch hx
  | register input phase =>
    cases phase with
    | consume phase => exact nomatch hy
    | _ => exact nomatch hx
  | login input phase =>
    cases phase with
    | consume phase => exact nomatch hy
    | _ => exact nomatch hx

theorem WebauthnCall.updating_of_consuming (c : WebauthnCall) {x : Consuming}
    {u : VerifyInput × Id × Nat} (hx : c.consuming = some x) : c.updating ≠ some u := by
  intro hu
  cases c with
  | login input phase =>
    cases phase with
    | consume phase => exact nomatch hu
    | _ => exact nomatch hx
  | _ => exact nomatch hu

theorem WebauthnCall.updating_of_holding (c : WebauthnCall) {y : Holding}
    {u : VerifyInput × Id × Nat} (hy : c.holding = some y) : c.updating ≠ some u := by
  intro hu
  cases c with
  | login input phase =>
    cases phase with
    | selectCredential challenge => exact nomatch hu
    | _ => exact nomatch hy
  | _ => exact nomatch hu

/-! ## Statements -/

/-- The rows that `FOR UPDATE SKIP LOCKED` chooses from. -/
def freeChallenges (db : WebauthnDb) (held : Id → Bool) (x : Consuming) (now : Time)
    (candidates : List Id) : List WebauthnChallenge :=
  db.challenges.filter fun c =>
    c.id ∈ candidates ∧ activeChallenge x.input.appId x.input.clientRef x.purpose now c ∧
      held c.id = false

/-- What a statement of a ceremony does, by the stage of the call. -/
inductive CeremonyStep (X : Webauthn) (db : WebauthnDb) (held : Id → Bool) (w : World) :
    WebauthnCall → WebauthnCall → Option WebauthnWrite → Prop
  /-- An options call stores the challenge that the library generated. -/
  | issue {input : OptionsInput} {options : WebauthnOptions}
      (fresh : hasKey (·.id) (newId .webauthnChallenge (w.ulid 0)) db.challenges = false) :
      CeremonyStep X db held w (.options input (.insertChallenge options))
        (.options input (.done (.ok options)))
        (some (.insertChallenge
          (createChallenge X w input.appId input.clientRef input.purpose options.challenge)))
  | snapshot {c c' : WebauthnCall} {x : Consuming} (here : c.consuming = some x)
      (first : x.phase = .snapshot)
      (next : c'.consuming = some { x with phase := .lock w.now ((db.challenges.filter
        (activeChallenge x.input.appId x.input.clientRef x.purpose w.now)).map (·.id)) }) :
      CeremonyStep X db held w c c' none
  | lock {c c' : WebauthnCall} {x : Consuming} {now : Time} {candidates : List Id}
      {row : WebauthnChallenge} (here : c.consuming = some x)
      (locking : x.phase = .lock now candidates)
      (chosen : newestChallenge (freeChallenges db held x now candidates) w.tie = some row)
      (next : c'.consuming = some { x with phase := .markUsed now row }) :
      CeremonyStep X db held w c c' none
  /-- No challenge is free. -/
  | miss {c c' : WebauthnCall} {x : Consuming} {now : Time} {candidates : List Id}
      (here : c.consuming = some x) (locking : x.phase = .lock now candidates)
      (none_free : newestChallenge (freeChallenges db held x now candidates) w.tie = none)
      (left : c'.consuming = none) (next : c'.holding = some ⟨x.input, x.purpose, none⟩) :
      CeremonyStep X db held w c c' none
  | markUsed {c c' : WebauthnCall} {x : Consuming} {now : Time} {row : WebauthnChallenge}
      (here : c.consuming = some x) (marking : x.phase = .markUsed now row)
      (left : c'.consuming = none)
      (next : c'.holding = some ⟨x.input, x.purpose, some row.challenge⟩) :
      CeremonyStep X db held w c c' (some (.useChallenge row.id now))
  /-- A registration is stored. -/
  | insertCredential {input : VerifyInput} {info : RegistrationInfo}
      (fresh : hasKey (·.id) (info.row X w input).id db.credentials = false) :
      CeremonyStep X db held w (.register input (.insert info))
        (.register input (.done (.ok info.credentialId)))
        (some (.insertCredential (info.row X w input)))
  /-- The library accepts the assertion of a login. -/
  | assert {input : VerifyInput} {challenge : Option Text} {row : WebauthnCredential}
      {expected : Expected} {newCounter : Nat}
      (found : db.credentials.find? (loginCredential X input) = some row)
      (expects : expectation X challenge = .ok expected)
      (accepted : checkAssertion X expected input.response row = .ok newCounter) :
      CeremonyStep X db held w (.login input (.selectCredential challenge))
        (.login input (.update row.id newCounter)) none
  | updateCredential {input : VerifyInput} {id : Id} {newCounter : Nat}
      (fits : fitsInteger newCounter = true) :
      CeremonyStep X db held w (.login input (.update id newCounter))
        (.login input (.done (.ok ()))) (some (.updateCredential id newCounter w.now))
  /-- A verify call begins to consume. -/
  | enter {c c' : WebauthnCall} {input : VerifyInput} {purpose : ChallengePurpose}
      (outside : c.consuming = none)
      (next : c'.consuming = some ⟨input, purpose, .snapshot⟩) : CeremonyStep X db held w c c' none
  /-- Any other step writes nothing and leads to a stage in which nothing is consumed or held. -/
  | other {c c' : WebauthnCall} (outside : c.consuming = none) (left : c'.consuming = none)
      (free : c'.holding = none) (idle : c'.updating = none) : CeremonyStep X db held w c c' none

section

variable {X : Webauthn} {db : WebauthnDb} {held : Id → Bool} {w : World}

/-- One statement of `consumeChallenge`, for a call that goes on by `next` and `hold`. -/
theorem consume_step {input : VerifyInput} {purpose : ChallengePurpose} {phase : ConsumePhase}
    {c c' : WebauthnCall} {write : Option WebauthnWrite}
    (next : ConsumePhase → WebauthnCall) (hold : Option Text → WebauthnCall)
    (here : c.consuming = some ⟨input, purpose, phase⟩)
    (nexts : ∀ phase', (next phase').consuming = some ⟨input, purpose, phase'⟩)
    (leaves : ∀ challenge, (hold challenge).consuming = none)
    (holds : ∀ challenge, (hold challenge).holding = some ⟨input, purpose, challenge⟩)
    (h : (match consumeChallenge db held w input.appId input.clientRef purpose phase with
      | (.next phase', write) => (next phase', write)
      | (.returned challenge, write) => (hold challenge, write)) = (c', write)) :
    CeremonyStep X db held w c c' write := by
  cases phase with
  | snapshot =>
    obtain ⟨rfl, rfl⟩ := Prod.mk.inj h
    exact .snapshot here rfl (nexts _)
  | lock now candidates =>
    cases chosen : newestChallenge
        (freeChallenges db held ⟨input, purpose, .lock now candidates⟩ now candidates) w.tie with
    | none =>
      have missed : consumeChallenge db held w input.appId input.clientRef purpose
          (.lock now candidates) = (.returned none, none) := by
        unfold freeChallenges at chosen
        simp only [consumeChallenge, chosen]
      rw [missed] at h
      obtain ⟨rfl, rfl⟩ := Prod.mk.inj h
      exact .miss here rfl chosen (leaves _) (holds _)
    | some row =>
      have locked : consumeChallenge db held w input.appId input.clientRef purpose
          (.lock now candidates) = (.next (.markUsed now row), none) := by
        unfold freeChallenges at chosen
        simp only [consumeChallenge, chosen]
      rw [locked] at h
      obtain ⟨rfl, rfl⟩ := Prod.mk.inj h
      exact .lock here rfl chosen (nexts _)
  | markUsed now row =>
    obtain ⟨rfl, rfl⟩ := Prod.mk.inj h
    exact .markUsed here rfl (leaves _) (holds _)

theorem options_step {input : OptionsInput} {phase : OptionsPhase} {c' : WebauthnCall}
    {write : Option WebauthnWrite}
    (h : (WebauthnCall.options input phase).statement X db held w = some (c', write)) :
    CeremonyStep X db held w (.options input phase) c' write := by
  obtain ⟨⟨phase', write'⟩, hr, same⟩ := Option.map_eq_some_iff.mp h
  obtain ⟨rfl, rfl⟩ := Prod.mk.inj same
  cases phase with
  | generate =>
    simp only [buildOptions] at hr
    split at hr <;> obtain ⟨rfl, rfl⟩ := Prod.mk.inj (Option.some.inj hr) <;> exact .other rfl rfl rfl rfl
  | insertChallenge options =>
    simp only [buildOptions] at hr
    split at hr
    · obtain ⟨rfl, rfl⟩ := Prod.mk.inj (Option.some.inj hr)
      exact .other rfl rfl rfl rfl
    · next fresh =>
      obtain ⟨rfl, rfl⟩ := Prod.mk.inj (Option.some.inj hr)
      exact .issue (Bool.eq_false_iff.mpr fresh)
  | done result => cases hr
  | failed => cases hr

theorem register_step {input : VerifyInput} {phase : RegisterPhase} {c' : WebauthnCall}
    {write : Option WebauthnWrite}
    (h : (WebauthnCall.register input phase).statement X db held w = some (c', write)) :
    CeremonyStep X db held w (.register input phase) c' write := by
  obtain ⟨⟨phase', write'⟩, hr, same⟩ := Option.map_eq_some_iff.mp h
  obtain ⟨rfl, rfl⟩ := Prod.mk.inj same
  cases phase with
  | start =>
    obtain ⟨-, same⟩ | ⟨-, same⟩ := ite_eq_iff.mp hr
    · obtain ⟨rfl, rfl⟩ := Prod.mk.inj (Option.some.inj same)
      exact .other rfl rfl rfl rfl
    · obtain ⟨rfl, rfl⟩ := Prod.mk.inj (Option.some.inj same)
      exact .enter rfl rfl
  | consume phase =>
    refine consume_step (fun phase => .register input (.consume phase))
      (fun challenge => .register input (.selectExisting challenge)) rfl (fun _ => rfl)
      (fun _ => rfl) (fun _ => rfl) ?_
    simp only [verifyRegister] at hr
    revert hr
    rcases consumeChallenge db held w input.appId input.clientRef .register phase with
      ⟨next | challenge, written⟩ <;> rintro ⟨⟩ <;> rfl
  | selectExisting challenge =>
    simp only [verifyRegister] at hr
    split at hr
    · obtain ⟨rfl, rfl⟩ := Prod.mk.inj (Option.some.inj hr)
      exact .other rfl rfl rfl rfl
    · split at hr <;> obtain ⟨rfl, rfl⟩ := Prod.mk.inj (Option.some.inj hr) <;>
        exact .other rfl rfl rfl rfl
  | insert info =>
    simp only [verifyRegister] at hr
    split at hr
    · obtain ⟨rfl, rfl⟩ := Prod.mk.inj (Option.some.inj hr)
      exact .other rfl rfl rfl rfl
    · next fresh =>
      obtain ⟨rfl, rfl⟩ := Prod.mk.inj (Option.some.inj hr)
      simp only [Bool.or_eq_true, not_or, Bool.not_eq_true] at fresh
      exact .insertCredential fresh.1.1
  | done result => cases hr
  | failed => cases hr

theorem login_step {input : VerifyInput} {phase : LoginPhase} {c' : WebauthnCall}
    {write : Option WebauthnWrite}
    (h : (WebauthnCall.login input phase).statement X db held w = some (c', write)) :
    CeremonyStep X db held w (.login input phase) c' write := by
  obtain ⟨⟨phase', write'⟩, hr, same⟩ := Option.map_eq_some_iff.mp h
  obtain ⟨rfl, rfl⟩ := Prod.mk.inj same
  have stops : ∀ {result}, some (LoginPhase.done result, none) = some (phase', write') →
      (WebauthnCall.login input phase).consuming = none →
      CeremonyStep X db held w (.login input phase) (.login input phase') write' := by
    intro result same outside
    obtain ⟨rfl, rfl⟩ := Prod.mk.inj (Option.some.inj same)
    exact .other outside rfl rfl rfl
  cases phase with
  | start =>
    obtain ⟨-, same⟩ | ⟨-, same⟩ := ite_eq_iff.mp hr
    · exact stops same rfl
    · obtain ⟨rfl, rfl⟩ := Prod.mk.inj (Option.some.inj same)
      exact .enter rfl rfl
  | consume phase =>
    refine consume_step (fun phase => .login input (.consume phase))
      (fun challenge => .login input (.selectCredential challenge)) rfl (fun _ => rfl)
      (fun _ => rfl) (fun _ => rfl) ?_
    simp only [verifyLogin] at hr
    revert hr
    rcases consumeChallenge db held w input.appId input.clientRef .login phase with
      ⟨next | challenge, written⟩ <;> rintro ⟨⟩ <;> rfl
  | selectCredential challenge =>
    simp only [verifyLogin] at hr
    split at hr
    · exact stops hr rfl
    · obtain ⟨-, same⟩ | ⟨-, same⟩ := ite_eq_iff.mp hr
      · exact stops same rfl
      · split at same
        · exact stops same rfl
        · next found =>
          split at same
          · exact stops same rfl
          · next expects =>
            split at same
            · exact stops same rfl
            · next accepted =>
              obtain ⟨rfl, rfl⟩ := Prod.mk.inj (Option.some.inj same)
              exact .assert found expects accepted
  | update id newCounter =>
    obtain ⟨-, same⟩ | ⟨fits, same⟩ := ite_eq_iff.mp hr
    · exact stops same rfl
    · obtain ⟨rfl, rfl⟩ := Prod.mk.inj (Option.some.inj same)
      exact .updateCredential (by simpa using fits)
  | done result => exact nomatch hr
  | failed => exact nomatch hr

theorem webauthn_step {c c' : WebauthnCall} {write : Option WebauthnWrite}
    (h : c.statement X db held w = some (c', write)) : CeremonyStep X db held w c c' write := by
  cases c with
  | options input phase => exact options_step h
  | register input phase => exact register_step h
  | login input phase => exact login_step h

variable {c c' : WebauthnCall} {write : Option WebauthnWrite} {x : Consuming} {now : Time}

/-- A call that has sampled the time has just taken its snapshot. -/
theorem CeremonyStep.listed {candidates : List Id} (h : CeremonyStep X db held w c c' write)
    (hx : c'.consuming = some x) (hp : x.phase = .lock now candidates) :
    write = none ∧ c.consuming = some { x with phase := .snapshot } ∧ now = w.now ∧
      candidates = (db.challenges.filter
        (activeChallenge x.input.appId x.input.clientRef x.purpose now)).map (·.id) := by
  cases h with
  | snapshot here first next =>
    obtain rfl := Option.some.inj (next.symm.trans hx)
    obtain ⟨rfl, rfl⟩ := ConsumePhase.lock.inj hp
    exact ⟨rfl, first ▸ here, rfl, rfl⟩
  | lock here locking chosen next =>
    obtain rfl := Option.some.inj (next.symm.trans hx)
    exact nomatch hp
  | enter outside next =>
    obtain rfl := Option.some.inj (next.symm.trans hx)
    exact nomatch hp
  | miss here locking none_free left => exact nomatch left.symm.trans hx
  | markUsed here marking left => exact nomatch left.symm.trans hx
  | other outside left => exact nomatch left.symm.trans hx
  | _ => exact nomatch hx

/-- A call that has locked a row has just chosen it among the free ones. -/
theorem CeremonyStep.locked {row : WebauthnChallenge} (h : CeremonyStep X db held w c c' write)
    (hx : c'.consuming = some x) (hp : x.phase = .markUsed now row) :
    write = none ∧ ∃ candidates, c.consuming = some { x with phase := .lock now candidates } ∧
      newestChallenge (freeChallenges db held x now candidates) w.tie = some row := by
  cases h with
  | lock here locking chosen next =>
    obtain rfl := Option.some.inj (next.symm.trans hx)
    obtain ⟨rfl, rfl⟩ := ConsumePhase.markUsed.inj hp
    exact ⟨rfl, _, locking ▸ here, chosen⟩
  | snapshot here first next =>
    obtain rfl := Option.some.inj (next.symm.trans hx)
    exact nomatch hp
  | enter outside next =>
    obtain rfl := Option.some.inj (next.symm.trans hx)
    exact nomatch hp
  | miss here locking none_free left => exact nomatch left.symm.trans hx
  | markUsed here marking left => exact nomatch left.symm.trans hx
  | other outside left => exact nomatch left.symm.trans hx
  | _ => exact nomatch hx

/-- A call that holds what `consumeChallenge` returned has just marked a row, or found none. -/
theorem CeremonyStep.returned {y : Holding} (h : CeremonyStep X db held w c c' write)
    (holds : c'.holding = some y) :
    (∃ now candidates, c.consuming = some ⟨y.input, y.purpose, .lock now candidates⟩ ∧
      newestChallenge (freeChallenges db held ⟨y.input, y.purpose, .lock now candidates⟩ now
        candidates) w.tie = none ∧ y.challenge = none) ∨
    ∃ now row, c.consuming = some ⟨y.input, y.purpose, .markUsed now row⟩ ∧
      y.challenge = some row.challenge := by
  cases h with
  | @miss _ _ x now candidates here locking none_free left next =>
    obtain rfl := Option.some.inj (next.symm.trans holds)
    obtain ⟨input, purpose, phase⟩ := x
    obtain rfl : phase = .lock now candidates := locking
    exact .inl ⟨now, candidates, here, none_free, rfl⟩
  | @markUsed _ _ x now row here marking left next =>
    obtain rfl := Option.some.inj (next.symm.trans holds)
    exact .inr ⟨now, row, marking ▸ here, rfl⟩
  | other outside left free => exact nomatch free.symm.trans holds
  | snapshot here first next => exact absurd holds (c'.holding_of_consuming next)
  | lock here locking chosen next => exact absurd holds (c'.holding_of_consuming next)
  | enter outside next => exact absurd holds (c'.holding_of_consuming next)
  | _ => exact nomatch holds

/-- A login that is about to write has just had its response accepted. -/
theorem CeremonyStep.asserted {input : VerifyInput} {id : Id} {newCounter : Nat}
    (h : CeremonyStep X db held w c c' write)
    (updates : c'.updating = some (input, id, newCounter)) :
    ∃ challenge row expected, c = .login input (.selectCredential challenge) ∧
      db.credentials.find? (loginCredential X input) = some row ∧ row.id = id ∧
      checkAssertion X expected input.response row = .ok newCounter := by
  cases h with
  | assert found expects accepted =>
    obtain ⟨rfl, rest⟩ := Prod.mk.inj (Option.some.inj updates)
    obtain ⟨rfl, rfl⟩ := Prod.mk.inj rest
    exact ⟨_, _, _, rfl, found, rfl, accepted⟩
  | other outside left free idle => exact nomatch idle.symm.trans updates
  | snapshot here first next => exact absurd updates (c'.updating_of_consuming next)
  | lock here locking chosen next => exact absurd updates (c'.updating_of_consuming next)
  | enter outside next => exact absurd updates (c'.updating_of_consuming next)
  | miss here locking none_free left next => exact absurd updates (c'.updating_of_holding next)
  | markUsed here marking left next => exact absurd updates (c'.updating_of_holding next)
  | _ => exact nomatch updates

/-- A call that has locked a row marks it next. -/
theorem CeremonyStep.marking {row : WebauthnChallenge} (h : CeremonyStep X db held w c c' write)
    (hx : c.consuming = some x) (hp : x.phase = .markUsed now row) :
    write = some (.useChallenge row.id now) := by
  cases h with
  | markUsed here marking =>
    obtain rfl := Option.some.inj (here.symm.trans hx)
    obtain ⟨rfl, rfl⟩ := ConsumePhase.markUsed.inj (marking.symm.trans hp)
    rfl
  | snapshot here first =>
    obtain rfl := Option.some.inj (here.symm.trans hx)
    exact nomatch first.symm.trans hp
  | lock here locking =>
    obtain rfl := Option.some.inj (here.symm.trans hx)
    exact nomatch locking.symm.trans hp
  | miss here locking =>
    obtain rfl := Option.some.inj (here.symm.trans hx)
    exact nomatch locking.symm.trans hp
  | enter outside => exact nomatch outside.symm.trans hx
  | other outside => exact nomatch outside.symm.trans hx
  | _ => exact nomatch hx

end

/-! ## Turns -/

/-- What a turn of a job does, seen from the tables of WebAuthn: the statement of a ceremony takes
effect, and the call goes on or its answer is lost; or the ceremony fails and nothing is written;
or it is the turn of another job. -/
inductive CeremonyTurn (S : Services) (d : Database) (others : List Job) :
    Job → ServiceMove → Turn Database Job → Prop
  | answered {c c' : WebauthnCall} {w : ServiceWorld} {write : Option WebauthnWrite}
      (step : CeremonyStep S.webauthn d.webauthn (lockedChallenge others) w.toWorld c c' write) :
      CeremonyTurn S d others (.webauthn c) (.statement w)
        ⟨{ d with webauthn := d.webauthn.commitOption write }, .webauthn c', []⟩
  | lost {c c' : WebauthnCall} {w : ServiceWorld} {write : Option WebauthnWrite}
      (step : CeremonyStep S.webauthn d.webauthn (lockedChallenge others) w.toWorld c c' write) :
      CeremonyTurn S d others (.webauthn c) (.lost w)
        ⟨{ d with webauthn := d.webauthn.commitOption write }, .webauthn c.failed, []⟩
  | dropped {c : WebauthnCall} {m : ServiceMove} :
      CeremonyTurn S d others (.webauthn c) m ⟨d, .webauthn c.failed, []⟩
  | aside {job : Job} {m : ServiceMove} {t : Turn Database Job} (other : job.webauthn? = none)
      (same : t.store.webauthn = d.webauthn) (call : t.call.webauthn? = none)
      (spawned : ∀ n ∈ t.spawned, n.webauthn? = none) : CeremonyTurn S d others job m t

theorem WebauthnCall.consuming_failed (c : WebauthnCall) : c.failed.consuming = none := by
  cases c <;> rfl

theorem WebauthnCall.holding_failed (c : WebauthnCall) : c.failed.holding = none := by
  cases c <;> rfl

theorem WebauthnCall.updating_failed (c : WebauthnCall) : c.failed.updating = none := by
  cases c <;> rfl

section

variable {S : Services} {d : Database} {others : List Job}

/-- A statement of another job leaves WebAuthn alone. -/
theorem statement_aside {job : Job} {w : ServiceWorld} {t : Turn Database Job}
    (other : job.webauthn? = none) (h : job.statement S d others w = some t) :
    t.store.webauthn = d.webauthn ∧ t.call.webauthn? = none ∧
      ∀ n ∈ t.spawned, n.webauthn? = none := by
  cases job with
  | core c =>
    obtain ⟨t', -, rfl⟩ := Option.map_eq_some_iff.mp h
    refine ⟨rfl, rfl, fun n hn => ?_⟩
    obtain ⟨_, _, rfl⟩ := List.mem_map.mp hn
    rfl
  | query q phase =>
    cases phase with
    | ready =>
      obtain rfl := Option.some.inj h
      exact ⟨rfl, rfl, fun _ hn => absurd hn List.not_mem_nil⟩
    | _ => exact nomatch h
  | createWebhook input phase =>
    obtain ⟨_, -, rfl⟩ := Option.map_eq_some_iff.mp h
    exact ⟨rfl, rfl, fun _ hn => absurd hn List.not_mem_nil⟩
  | deleteWebhook appId id phase =>
    cases phase with
    | ready =>
      obtain ⟨_, -, rfl⟩ := Option.map_eq_some_iff.mp h
      exact ⟨rfl, rfl, fun _ hn => absurd hn List.not_mem_nil⟩
    | _ => exact nomatch h
  | webauthn c => exact nomatch other
  | tick phase =>
    obtain ⟨_, -, rfl⟩ := Option.map_eq_some_iff.mp h
    exact ⟨rfl, rfl, fun _ hn => absurd hn List.not_mem_nil⟩

theorem ceremony_turn {job : Job} {m : ServiceMove} {t : Turn Database Job}
    (h : job.turn S d others m = some t) : CeremonyTurn S d others job m t := by
  cases hc : job.webauthn? with
  | none =>
    have thrown : job.thrown.webauthn? = none ∧ job.failed.webauthn? = none := by
      cases job with
      | webauthn c => exact nomatch hc
      | _ => exact ⟨rfl, rfl⟩
    cases m with
    | statement w =>
      obtain ⟨same, call, spawned⟩ := statement_aside hc h
      exact .aside hc same call spawned
    | error =>
      obtain ⟨-, same⟩ := Option.ite_none_right_eq_some.mp h
      obtain rfl := Option.some.inj same
      exact .aside hc rfl thrown.1 fun _ hn => absurd hn List.not_mem_nil
    | lost w =>
      obtain ⟨t', ht', rfl⟩ := Option.map_eq_some_iff.mp h
      exact .aside hc (statement_aside hc ht').1 thrown.1 fun _ hn => absurd hn List.not_mem_nil
    | crash =>
      obtain ⟨-, same⟩ := Option.ite_none_right_eq_some.mp h
      obtain rfl := Option.some.inj same
      exact .aside hc rfl thrown.2 fun _ hn => absurd hn List.not_mem_nil
  | some c =>
    obtain rfl := Job.eq_of_webauthn? hc
    cases m with
    | statement w =>
      obtain ⟨⟨c', write⟩, hr, rfl⟩ := Option.map_eq_some_iff.mp h
      exact .answered (webauthn_step hr)
    | error =>
      obtain ⟨-, same⟩ := Option.ite_none_right_eq_some.mp h
      exact Option.some.inj same ▸ .dropped
    | lost w =>
      obtain ⟨t', ht', rfl⟩ := Option.map_eq_some_iff.mp h
      obtain ⟨⟨c', write⟩, hr, rfl⟩ := Option.map_eq_some_iff.mp ht'
      exact .lost (webauthn_step hr)
    | crash =>
      obtain ⟨-, same⟩ := Option.ite_none_right_eq_some.mp h
      exact Option.some.inj same ▸ .dropped

/-- A call that is under way after a turn has had its statement answered. -/
theorem answered_turn {job : Job} {m : ServiceMove} {t : Turn Database Job}
    (h : job.turn S d others m = some t) {c : WebauthnCall} (hc : t.call.webauthn? = some c)
    (alive : ¬(c.consuming = none ∧ c.holding = none ∧ c.updating = none)) :
    ∃ c₀ w write, job = .webauthn c₀ ∧ m = .statement w ∧
      CeremonyStep S.webauthn d.webauthn (lockedChallenge others) w.toWorld c₀ c write ∧
      t.store = { d with webauthn := d.webauthn.commitOption write } := by
  cases ceremony_turn h with
  | answered step =>
    obtain rfl := Option.some.inj hc
    exact ⟨_, _, _, rfl, rfl, step, rfl⟩
  | lost step =>
    obtain rfl := Option.some.inj hc
    exact absurd ⟨WebauthnCall.consuming_failed _, WebauthnCall.holding_failed _,
      WebauthnCall.updating_failed _⟩ alive
  | dropped =>
    obtain rfl := Option.some.inj hc
    exact absurd ⟨WebauthnCall.consuming_failed _, WebauthnCall.holding_failed _,
      WebauthnCall.updating_failed _⟩ alive
  | aside other same call => exact nomatch call.symm.trans hc

/-- A step changes the tables of WebAuthn only by a statement of a ceremony, whose answer may be
lost. -/
theorem webauthn_stored {p q : Deployment} {a : Act Operation ServiceMove}
    (h : p.step (deployment S) a = some q) : q.store.webauthn = p.store.webauthn ∨
      ∃ i m w c c' write, a = .turn i m ∧ m.world? = some w ∧ p.calls[i]? = some (.webauthn c) ∧
        CeremonyStep S.webauthn p.store.webauthn (lockedChallenge (p.others i)) w.toWorld c c'
          write ∧ q.store.webauthn = p.store.webauthn.commitOption write := by
  cases a with
  | arrive r =>
    obtain ⟨_, _, rfl⟩ := Pool.step_arrive h
    exact .inl rfl
  | turn i m =>
    obtain ⟨job, t, hi, turn, rfl⟩ := Pool.step_turn h
    cases ceremony_turn turn with
    | answered step => exact .inr ⟨i, _, _, _, _, _, rfl, rfl, hi, step, rfl⟩
    | lost step => exact .inr ⟨i, _, _, _, _, _, rfl, rfl, hi, step, rfl⟩
    | dropped => exact .inl rfl
    | aside other same => exact .inl same

/-- What every statement of a ceremony keeps of these tables, every run keeps. -/
theorem webauthn_invariant {P : WebauthnDb → Prop}
    (kept : ∀ {db held w c c' write}, P db → CeremonyStep S.webauthn db held w c c' write →
      P (db.commitOption write))
    {log : List (Deployment × Act Operation ServiceMove)} {p q : Deployment}
    (run : Run (Pool.step (deployment S)) p log q) (init : P p.store.webauthn) :
    P q.store.webauthn := by
  refine run.invariant (I := fun q => P q.store.webauthn) init fun q a q' holds step => ?_
  rcases webauthn_stored step with same | ⟨_, _, _, _, _, _, _, _, _, step, same⟩
  · rw [same]
    exact holds
  · rw [same]
    exact kept holds step

/-- A call that arrives has not begun to consume. -/
theorem admitted_idle {r : Operation} {job : Job} (h : (deployment S).accept d r = some job)
    {c : WebauthnCall} (hc : job.webauthn? = some c) :
    c.consuming = none ∧ c.holding = none ∧ c.updating = none := by
  cases r with
  | core r =>
    obtain ⟨_, -, rfl⟩ := Option.map_eq_some_iff.mp h
    exact nomatch hc
  | webauthn r =>
    obtain rfl := Option.some.inj h
    obtain rfl := Option.some.inj hc
    cases r <;> exact ⟨rfl, rfl, rfl⟩
  | _ =>
    obtain rfl := Option.some.inj h
    exact nomatch hc

end

end Syrotp
