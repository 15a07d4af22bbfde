import Syrotp.Server.Proofs.Challenges

/-!
# Which challenge a response is checked against

`consumeChallenge` does not look at the response. It takes the newest challenge of the user and
purpose that is free when it locks, so a response meets its own challenge only as long as no newer
one is there.
-/

namespace Syrotp

variable {S : Services}

/-- What the library is asked to check a response against at a verify call's next statement. -/
def WebauthnCall.expected? (X : Webauthn) (db : WebauthnDb) : WebauthnCall → Option Expected
  | .register _ (.selectExisting challenge) => (expectation X challenge).toOption
  | .login input (.selectCredential challenge) =>
    if (db.credentials.find? (loginCredential X input)).isSome then
      (expectation X challenge).toOption
    else none
  | _ => none

theorem expectation_of_toOption {X : Webauthn} {challenge : Option Text} {expected : Expected}
    (h : (expectation X challenge).toOption = some expected) :
    expectation X challenge = .ok expected := by
  cases hr : expectation X challenge with
  | error e =>
    rw [hr] at h
    exact nomatch h
  | ok found =>
    rw [hr] at h
    exact congrArg Except.ok (Option.some.inj h)

theorem expectation_challenge {X : Webauthn} {challenge : Option Text} {expected : Expected}
    (h : expectation X challenge = .ok expected) :
    challenge = some expected.challenge ∧ expected.challenge ≠ [] := by
  unfold expectation at h
  split at h
  · exact nomatch h
  · split at h
    · exact nomatch h
    · next given =>
      split at h
      · exact nomatch h
      · cases hr : X.config.requireRpId with
        | error e =>
          rw [hr] at h
          exact nomatch h
        | ok rpId =>
          rw [hr] at h
          obtain rfl := Except.ok.inj h
          exact ⟨rfl, given⟩

/-- The library is asked about the challenge that the call holds. -/
theorem expected_holding {X : Webauthn} {db : WebauthnDb} {c : WebauthnCall} {expected : Expected}
    (h : c.expected? X db = some expected) :
    ∃ input purpose, c.holding = some ⟨input, purpose, some expected.challenge⟩ := by
  cases c with
  | options input phase => cases h
  | register input phase =>
    cases phase with
    | selectExisting challenge =>
      obtain rfl := (expectation_challenge (expectation_of_toOption h)).1
      exact ⟨_, _, rfl⟩
    | _ => cases h
  | login input phase =>
    cases phase with
    | selectCredential challenge =>
      obtain ⟨-, h⟩ := Option.ite_none_right_eq_some.mp h
      obtain rfl := (expectation_challenge (expectation_of_toOption h)).1
      exact ⟨_, _, rfl⟩
    | _ => cases h

/-- Where the call goes when the library is asked about a challenge. -/
def WebauthnCall.judged (X : Webauthn) (db : WebauthnDb) (expected : Expected) :
    WebauthnCall → WebauthnCall
  | .register input _ =>
    match X.library.verifyRegistrationResponse input.response expected with
    | none => .register input (.done (.error internal))
    | some none => .register input (.done (.error
        (badRequest "attestation_failed" "registration could not be verified")))
    | some (some info) =>
      if hasKey (·.lookup) (input.appId, X.library.hashCredentialId info.credentialId)
          db.credentials then .register input (.done (.ok info.credentialId))
      else .register input (.insert info)
  | .login input phase =>
    match db.credentials.find? (loginCredential X input) with
    | none => .login input phase
    | some row =>
      match X.library.verifyAuthenticationResponse input.response expected
          ⟨input.response.id, row.publicKey, row.signCount, row.transports⟩ with
      | none => .login input (.done (.error internal))
      | some none => .login input (.done (.error
          (badRequest "assertion_failed" "authentication could not be verified")))
      | some (some newCounter) => .login input (.update row.id newCounter)
  | c => c

/-- The next statement asks the library about that challenge, and goes by what it says. -/
theorem statement_judged {X : Webauthn} {db : WebauthnDb} {c : WebauthnCall} {expected : Expected}
    (h : c.expected? X db = some expected) (held : Id → Bool) (w : World) :
    c.statement X db held w = some (c.judged X db expected, none) := by
  cases c with
  | options input phase => cases h
  | register input phase =>
    cases phase with
    | selectExisting challenge =>
      have asked : expectation X challenge = .ok expected := expectation_of_toOption h
      simp only [WebauthnCall.statement, verifyRegister, checkRegistration, asked,
        WebauthnCall.judged]
      cases X.library.verifyRegistrationResponse input.response expected with
      | none => rfl
      | some verified =>
        cases verified with
        | none => rfl
        | some info => dsimp only; split <;> rfl
    | _ => cases h
  | login input phase =>
    cases phase with
    | selectCredential challenge =>
      obtain ⟨known, h⟩ := Option.ite_none_right_eq_some.mp h
      have asked : expectation X challenge = .ok expected := expectation_of_toOption h
      obtain ⟨row, found⟩ := Option.isSome_iff_exists.mp known
      obtain ⟨rfl, nonempty⟩ := expectation_challenge asked
      simp only [WebauthnCall.statement, verifyLogin, if_neg nonempty, found, asked,
        checkAssertion, WebauthnCall.judged]
      cases X.library.verifyAuthenticationResponse input.response expected
          ⟨input.response.id, row.publicKey, row.signCount, row.transports⟩ with
      | none => rfl
      | some verified => cases verified <;> rfl
    | _ => cases h

/-! ## Where a held challenge comes from -/

/-- A call that holds what `consumeChallenge` returned took a snapshot, then locked a row or found
none free, and holds the challenge of that row. -/
def Chosen (log : List (Deployment × Act Operation ServiceMove)) (i : Nat) (job : Job) : Prop :=
  ∀ (c : WebauthnCall) (y : Holding), job.webauthn? = some c → c.holding = some y →
    ∃ now candidates row e₁ e₂, [e₁, e₂].Sublist log ∧
      Lists e₁ i ⟨y.input, y.purpose, .snapshot⟩ now candidates ∧
      Picks e₂ i ⟨y.input, y.purpose, .snapshot⟩ now candidates row ∧
      y.challenge = row.map (·.challenge)

theorem holding_chosen {log : List (Deployment × Act Operation ServiceMove)} {p : Deployment}
    (run : DeploymentRun S log p) : ∀ i job, p.calls[i]? = some job → Chosen log i job := by
  have idle : ∀ {log i job}, (∀ c, job.webauthn? = some c → c.holding = none) →
      Chosen log i job := fun idle c y hj hy => nomatch (idle c hj).symm.trans hy
  refine Pool.call_history ?frame ?first ?admitted ?spawned ?turned run
  case frame =>
    intro log q a i job _ K c y hj hy
    obtain ⟨now, candidates, row, e₁, e₂, order, rest⟩ := K c y hj hy
    exact ⟨now, candidates, row, e₁, e₂, order.trans (List.sublist_append_left _ _), rest⟩
  case first => exact fun i job h => nomatch h
  case admitted => exact fun d r job h log i _ => idle fun c hc => (admitted_idle h hc).2.1
  case spawned =>
    intro log q i job m t _ _ h n hn log i _
    cases ceremony_turn h with
    | aside other same call spawned => exact idle fun c hc => nomatch (spawned n hn).symm.trans hc
    | _ => exact absurd hn List.not_mem_nil
  case turned =>
    intro log q i job m t run hi h _ c y hj hy
    obtain ⟨c₀, w, write, rfl, rfl, step, _⟩ :=
      answered_turn h hj fun idle => nomatch idle.2.1.symm.trans hy
    rcases step.returned hy with ⟨now, candidates, here, empty, same⟩ | ⟨now, row, here, same⟩
    · obtain ⟨e, he, listed⟩ := (consuming_retraced run i _ hi c₀ _ rfl here).1 now candidates rfl
      refine ⟨now, candidates, none, e, _, (List.singleton_sublist.mpr he).append
        (List.Sublist.refl [(q, Act.turn i (ServiceMove.statement w))]), listed, ?_, same⟩
      exact ⟨w, c₀, rfl, hi, here, empty⟩
    · obtain ⟨candidates, e₁, e₂, order, listed, picked⟩ :=
        (consuming_retraced run i _ hi c₀ _ rfl here).2 now row rfl
      exact ⟨now, candidates, some row, e₁, e₂, order.trans (List.sublist_append_left _ _), listed,
        picked, same⟩

/-! ## The newest free challenge -/

theorem newestChallenge_eq_none {rows : List WebauthnChallenge} {tie : Nat}
    (h : newestChallenge rows tie = none) : rows = [] := by
  by_contra some_row
  have times : rows.map (·.createdAt) ≠ [] := fun empty => some_row (List.map_eq_nil_iff.mp empty)
  obtain ⟨row, hr, top⟩ := List.mem_map.mp (List.max_mem times)
  have newest : row ∈ rows.filter fun c => rows.all fun c' => c'.createdAt ≤ c.createdAt := by
    refine List.mem_filter.mpr ⟨hr, List.all_eq_true.mpr fun r hr' => decide_eq_true ?_⟩
    rw [top]
    exact List.le_max_of_mem (List.mem_map_of_mem hr')
  have bound := List.getElem?_eq_none_iff.mp h
  exact absurd (Nat.mod_lt tie (List.length_pos_of_mem newest)) (Nat.not_lt.mpr bound)

theorem newestChallenge_of_newer {rows : List WebauthnChallenge} {tie : Nat}
    {own : WebauthnChallenge} (here : own ∈ rows)
    (newer : ∀ r ∈ rows, r ≠ own → r.createdAt < own.createdAt) :
    newestChallenge rows tie = some own := by
  cases chosen : newestChallenge rows tie with
  | none =>
    rw [newestChallenge_eq_none chosen] at here
    exact absurd here List.not_mem_nil
  | some row =>
    obtain ⟨mem, newest⟩ := newestChallenge_mem chosen
    by_cases same : row = own
    · rw [same]
    · exact absurd (newest own here) (Nat.not_le.mpr (newer row mem same))

/-- A verify call holds the newest of the challenges of its user and purpose that were active in
its snapshot and are, when it locks, still active and locked by no one else; the library is asked
about that one, and the call goes by what it says. So the response's own challenge is the one if it
is still unused and unlocked then and all the others are older; and where there is a newer one, the
library is asked about a newer one. -/
theorem checked_against_newest {log : List (Deployment × Act Operation ServiceMove)}
    {p : Deployment} (run : DeploymentRun S log p) {i : Nat} {c : WebauthnCall} {y : Holding}
    (hi : p.calls[i]? = some (.webauthn c)) (hy : c.holding = some y) :
    ∃ x now candidates row e₁ e₂, x.input = y.input ∧ x.purpose = y.purpose ∧
      [e₁, e₂].Sublist log ∧ Lists e₁ i x now candidates ∧ Picks e₂ i x now candidates row ∧
      y.challenge = row.map (·.challenge) ∧
      (∀ expected, c.expected? S.webauthn p.store.webauthn = some expected →
        y.challenge = some expected.challenge ∧
          ∀ held w, c.statement S.webauthn p.store.webauthn held w =
            some (c.judged S.webauthn p.store.webauthn expected, none)) ∧
      ∀ free, free = freeChallenges e₂.1.store.webauthn (lockedChallenge (e₂.1.others i)) x now
          candidates →
        ∀ own ∈ e₁.1.store.webauthn.challenges,
          activeChallenge y.input.appId y.input.clientRef y.purpose now own = true →
          (own ∈ free ↔ own ∈ e₂.1.store.webauthn.challenges ∧
            lockedChallenge (e₂.1.others i) own.id = false) ∧
          (own ∈ free → (∀ r ∈ free, r ≠ own → r.createdAt < own.createdAt) → row = some own) ∧
          ∀ r ∈ free, own.createdAt < r.createdAt →
            ∃ other ∈ free, row = some other ∧ own.createdAt < other.createdAt := by
  obtain ⟨now, candidates, row, e₁, e₂, order, listed, picked, same⟩ :=
    holding_chosen run i _ hi c y rfl hy
  obtain ⟨_, _, _, _, _, _, seen⟩ := id listed
  obtain ⟨w, _, _, _, _, chosen⟩ := id picked
  refine ⟨⟨y.input, y.purpose, .snapshot⟩, now, candidates, row, e₁, e₂, rfl, rfl, order, listed,
    picked, same, fun expected asked => ?_, ?_⟩
  · obtain ⟨input, purpose, held⟩ := expected_holding asked
    obtain rfl := Option.some.inj (hy.symm.trans held)
    exact ⟨rfl, statement_judged asked⟩
  · rintro free rfl own there active
    refine ⟨?_, fun here newer => ?_, fun r hr older => ?_⟩
    · have candidate : own.id ∈ candidates := by
        rw [seen]
        exact List.mem_map_of_mem (List.mem_filter.mpr ⟨there, active⟩)
      rw [mem_freeChallenges]
      exact ⟨fun h => ⟨h.1, h.2.2.2⟩, fun h => ⟨h.1, candidate, active, h.2⟩⟩
    · exact chosen.symm.trans (newestChallenge_of_newer here newer)
    · cases row with
      | none =>
        rw [newestChallenge_eq_none chosen] at hr
        exact absurd hr List.not_mem_nil
      | some other =>
        obtain ⟨mem, newest⟩ := newestChallenge_mem chosen
        exact ⟨other, mem, rfl, Nat.lt_of_lt_of_le older (newest r hr)⟩

/-- With one challenge there is no other: the call holds that of its response. -/
theorem checked_against_newest_script : ∃ log p x now candidates row e₁ e₂,
    DeploymentRun CeremonyScript.services log p ∧
    p.calls[1]? = some (.webauthn (.register (CeremonyScript.response 0 1000)
      (.selectExisting (some [1000])))) ∧
    [e₁, e₂].Sublist log ∧ Lists e₁ 1 x now candidates ∧
    Picks e₂ 1 x now candidates (some row) ∧ row.challenge = [1000] := by
  have run := CeremonyScript.run CeremonyScript.doubled_runs
  have here : ((CeremonyScript.result CeremonyScript.doubled).get
      CeremonyScript.doubled_runs).2.calls[1]? = some (.webauthn (.register
        (CeremonyScript.response 0 1000) (.selectExisting (some [1000])))) := by decide +kernel
  obtain ⟨x, now, candidates, row, e₁, e₂, _, _, order, listed, picked, same, _⟩ :=
    checked_against_newest run here rfl
  cases row with
  | none => exact nomatch same
  | some row =>
    exact ⟨_, _, x, now, candidates, row, e₁, e₂, run, here, order, listed, picked,
      (Option.some.inj same).symm⟩

namespace CeremonyScript

/-- In a second tab the user starts the ceremony again, before the response of the first. -/
def overlapping : List (Act Operation ServiceMove) :=
  [options .register] ++ turns 0 2 1000 ++ [options .register] ++ turns 1 2 2000 ++
  [.arrive (.webauthn (.registerVerify (response 0 1000)))]

theorem overlapping_runs : (result overlapping).isSome = true := by decide +kernel

def overlapped : Deployment := ((result overlapping).get overlapping_runs).2

/-- The verify call takes its turns, one after the other. -/
def verified (k : Nat) : Option (List (Deployment × Act Operation ServiceMove) × Deployment) :=
  exec (Pool.step (deployment services)) overlapped (turns 2 k 3000)

theorem verified_runs : (verified 4).isSome = true := by decide +kernel

/-- The challenge of the first tab. -/
def own : WebauthnChallenge :=
  ⟨newId .webauthnChallenge 1000, app, user, [1000], .register, 301000, none, 1000⟩

end CeremonyScript

/-- The challenge of the response is unused and unexpired when the call starts; the library is
asked about the newer one, and the response is rejected that it would accept for its own. -/
theorem response_meets_another_challenge : ∃ log s q c expected,
    DeploymentRun CeremonyScript.services log s ∧
    s.calls[2]? = some (.webauthn (.register (CeremonyScript.response 0 1000) .start)) ∧
    CeremonyScript.own ∈ s.store.webauthn.challenges ∧
    activeChallenge CeremonyScript.app CeremonyScript.user .register 3000 CeremonyScript.own = true ∧
    (exec (Pool.step (deployment CeremonyScript.services)) s (CeremonyScript.turns 2 4 3000)).map
      (·.2) = some q ∧
    q.calls[2]? = some (.webauthn c) ∧
    c.expected? CeremonyScript.services.webauthn q.store.webauthn = some expected ∧
    expected.challenge ≠ CeremonyScript.own.challenge ∧
    CeremonyScript.library.verifyRegistrationResponse (CeremonyScript.response 0 1000).response
      expected = some none ∧
    CeremonyScript.library.verifyRegistrationResponse (CeremonyScript.response 0 1000).response
      { expected with challenge := CeremonyScript.own.challenge } ≠ some none ∧
    (exec (Pool.step (deployment CeremonyScript.services)) s (CeremonyScript.turns 2 5 3000)).map
      (·.2.calls[2]?) = some (some (.webauthn (.register (CeremonyScript.response 0 1000)
        (.done (.error (badRequest "attestation_failed" "registration could not be verified")))))) :=
    by
  refine ⟨_, CeremonyScript.overlapped, _, .register (CeremonyScript.response 0 1000)
    (.selectExisting (some [2000])),
    ⟨[2000], [text "https://example.com"], text "example.com"⟩,
    CeremonyScript.run CeremonyScript.overlapping_runs, ?_, ?_, ?_,
    (congrArg (Option.map (·.2)) (Option.some_get CeremonyScript.verified_runs)).symm, ?_⟩
  all_goals decide +kernel

end Syrotp
