import Syrotp.Server.Proofs.Ceremonies
import Syrotp.Server.Proofs.Egress
import Syrotp.Server.Proofs.Reachable

/-!
# Challenges are used once

A verify call locks the row that it is about to mark used, and a row that is locked or used is
passed over. So a call that has locked a row finds it there and still active when it marks it, and
a row that has been marked is never locked again.
-/

namespace Syrotp

variable {S : Services} {d : Database} {others : List Job}

/-! ## Locked rows -/

/-- The challenge that a job has locked is there, and was active at the time that it sampled. -/
def Job.Locked (d : Database) (job : Job) : Prop :=
  ∀ (c : WebauthnCall) (x : Consuming) (now : Time) (row : WebauthnChallenge),
    job.webauthn? = some c → c.consuming = some x → x.phase = .markUsed now row →
      row ∈ d.webauthn.challenges ∧
        activeChallenge x.input.appId x.input.clientRef x.purpose now row = true

theorem Job.mem_challengeLocks {job : Job} {id : Id} (h : id ∈ job.challengeLocks) :
    ∃ c x now row, job.webauthn? = some c ∧ c.consuming = some x ∧
      x.phase = .markUsed now row ∧ row.id = id := by
  cases job with
  | webauthn c =>
    replace h : id ∈ c.locks := h
    rw [c.locks_eq] at h
    cases hx : c.consuming with
    | none =>
      rw [hx] at h
      exact absurd h List.not_mem_nil
    | some x =>
      rw [hx] at h
      replace h : id ∈ x.phase.locks := h
      cases hp : x.phase with
      | markUsed now row =>
        rw [hp] at h
        exact ⟨c, x, now, row, rfl, hx, hp, (List.mem_singleton.mp h).symm⟩
      | _ =>
        rw [hp] at h
        exact absurd h List.not_mem_nil
  | _ => exact absurd h List.not_mem_nil

theorem Job.challengeLocks_markUsed {job : Job} {c : WebauthnCall} {x : Consuming} {now : Time}
    {row : WebauthnChallenge} (hj : job.webauthn? = some c) (hx : c.consuming = some x)
    (hp : x.phase = .markUsed now row) : job.challengeLocks = [row.id] := by
  obtain rfl := Job.eq_of_webauthn? hj
  show c.locks = [row.id]
  rw [c.locks_eq, hx]
  show x.phase.locks = [row.id]
  rw [hp]
  rfl

theorem lockedChallenge_eq_false {id : Id} (h : lockedChallenge others id = false) :
    ∀ o ∈ others, id ∉ o.challengeLocks := by
  intro o ho held
  have locked : lockedChallenge others id = true :=
    List.any_eq_true.mpr ⟨o, ho, decide_eq_true held⟩
  exact Bool.false_ne_true (h.symm.trans locked)

/-- A job that is not inside `consumeChallenge` has locked nothing. -/
theorem Job.Locked.idle {job : Job}
    (idle : ∀ c, job.webauthn? = some c → c.consuming = none) :
    job.Locked d ∧ job.challengeLocks = [] := by
  refine ⟨fun c x now row hj hx => ?_, List.eq_nil_iff_forall_not_mem.mpr fun id h => ?_⟩
  · exact nomatch (idle c hj).symm.trans hx
  · obtain ⟨c, x, _, _, hj, hx, -, -⟩ := Job.mem_challengeLocks h
    exact nomatch (idle c hj).symm.trans hx

/-- The chosen row is one of the free ones. -/
theorem newestChallenge_mem {rows : List WebauthnChallenge} {tie : Nat}
    {row : WebauthnChallenge} (h : newestChallenge rows tie = some row) :
    row ∈ rows ∧ ∀ r ∈ rows, r.createdAt ≤ row.createdAt := by
  obtain ⟨mem, newest⟩ := List.mem_filter.mp (List.mem_of_getElem? h)
  exact ⟨mem, fun r hr => of_decide_eq_true (List.all_eq_true.mp newest r hr)⟩

theorem mem_freeChallenges {db : WebauthnDb} {held : Id → Bool} {x : Consuming} {now : Time}
    {candidates : List Id} {row : WebauthnChallenge} :
    row ∈ freeChallenges db held x now candidates ↔ row ∈ db.challenges ∧ row.id ∈ candidates ∧
      activeChallenge x.input.appId x.input.clientRef x.purpose now row = true ∧
      held row.id = false := by
  simp only [freeChallenges, List.mem_filter, decide_eq_true_eq]

/-- A statement marks at most the challenge that its call has locked. -/
theorem CeremonyStep.marks {X : Webauthn} {db : WebauthnDb} {held : Id → Bool} {w : World}
    {c c' : WebauthnCall} {id : Id} {t : Time}
    (h : CeremonyStep X db held w c c' (some (.useChallenge id t))) :
    ∃ x row, c.consuming = some x ∧ x.phase = .markUsed t row ∧ row.id = id := by
  generalize hw : some (WebauthnWrite.useChallenge id t) = write at h
  cases h with
  | markUsed here marking =>
    obtain ⟨rfl, rfl⟩ := WebauthnWrite.useChallenge.inj (Option.some.inj hw)
    exact ⟨_, _, here, marking, rfl⟩
  | _ => exact nomatch hw

/-- A write leaves the locked rows alone that it does not mark. -/
theorem Job.Locked.commit {job : Job} (h : job.Locked d) {write : Option WebauthnWrite}
    (apart : ∀ id t, write = some (.useChallenge id t) → id ∉ job.challengeLocks) :
    job.Locked { d with webauthn := d.webauthn.commitOption write } := by
  intro c x now row hj hx hp
  obtain ⟨mem, active⟩ := h c x now row hj hx hp
  refine ⟨?_, active⟩
  cases write with
  | none => exact mem
  | some write =>
    cases write with
    | insertChallenge new => exact List.mem_append_left _ mem
    | useChallenge id t =>
      have other : row.id ≠ id := by
        intro same
        apply apart id t rfl
        rw [Job.challengeLocks_markUsed hj hx hp, same]
        exact List.mem_singleton_self id
      exact mem_updateWhere_of_neg mem (decide_eq_false other)
    | _ => exact mem

/-! ## The discipline -/

/-- The proof obligations of the deployment, the locks of challenges being the tokens. -/
theorem challenge_discipline (S : Services) :
    Pool.Discipline (deployment S) Job.challengeLocks (fun _ => True) Job.Locked where
  admitted := fun _ h => Job.Locked.idle fun _ hc => (admitted_idle h hc).1
  store := fun _ _ => trivial
  self := by
    intro d others job m t settled h c x now row hj hx hp
    obtain ⟨c₀, w, write, rfl, rfl, step, same⟩ :=
      answered_turn h hj fun idle => nomatch idle.1.symm.trans hx
    obtain ⟨rfl, candidates, -, chosen⟩ := step.locked hx hp
    obtain ⟨mem, -, active, -⟩ := mem_freeChallenges.mp (newestChallenge_mem chosen).1
    rw [same]
    exact ⟨mem, active⟩
  spawned := by
    intro d others job m t settled h n hn
    cases ceremony_turn h with
    | aside other same call spawned =>
      exact Job.Locked.idle fun c hc => nomatch (spawned n hn).symm.trans hc
    | _ => exact absurd hn List.not_mem_nil
  frame := by
    intro d others job m t settled h o ho
    have theirs := settled.theirs o ho
    have apart : ∀ {c c' : WebauthnCall} {w : World} {write : Option WebauthnWrite},
        job = .webauthn c → CeremonyStep S.webauthn d.webauthn (lockedChallenge others) w c c' write →
        ∀ id t, write = some (.useChallenge id t) → id ∉ o.challengeLocks := by
      rintro c c' w write rfl step id t rfl
      obtain ⟨x, row, hx, hp, rfl⟩ := step.marks
      apply settled.apart o ho
      rw [Job.challengeLocks_markUsed rfl hx hp]
      exact List.mem_singleton_self _
    cases ceremony_turn h with
    | answered step => exact theirs.commit (apart rfl step)
    | lost step => exact theirs.commit (apart rfl step)
    | dropped => exact theirs
    | aside other same =>
      intro c x now row hj hx hp
      rw [same]
      exact theirs c x now row hj hx hp
  acquire := by
    intro d others job m t settled h k hk
    obtain ⟨c, x, now, row, hj, hx, hp, rfl⟩ := Job.mem_challengeLocks hk
    obtain ⟨c₀, w, write, rfl, rfl, step, same⟩ :=
      answered_turn h hj fun idle => nomatch idle.1.symm.trans hx
    obtain ⟨rfl, candidates, -, chosen⟩ := step.locked hx hp
    obtain ⟨-, -, -, free⟩ := mem_freeChallenges.mp (newestChallenge_mem chosen).1
    exact .inr (lockedChallenge_eq_false free)

/-! ## A call's own steps -/

/-- At this step the verify call at position `i` samples the time and takes its snapshot. -/
def Lists (e : Deployment × Act Operation ServiceMove) (i : Nat) (x : Consuming) (now : Time)
    (candidates : List Id) : Prop :=
  ∃ w c, e.2 = .turn i (.statement w) ∧ e.1.calls[i]? = some (.webauthn c) ∧
    c.consuming = some { x with phase := .snapshot } ∧ now = w.now ∧
    candidates = (e.1.store.webauthn.challenges.filter
      (activeChallenge x.input.appId x.input.clientRef x.purpose now)).map (·.id)

/-- At this step it locks the newest of the free rows, if there is one. -/
def Picks (e : Deployment × Act Operation ServiceMove) (i : Nat) (x : Consuming) (now : Time)
    (candidates : List Id) (row : Option WebauthnChallenge) : Prop :=
  ∃ w c, e.2 = .turn i (.statement w) ∧ e.1.calls[i]? = some (.webauthn c) ∧
    c.consuming = some { x with phase := .lock now candidates } ∧
    newestChallenge (freeChallenges e.1.store.webauthn (lockedChallenge (e.1.others i)) x now
      candidates) w.tie = row

/-- A call that has its snapshot took it, and one that has locked a row locked it after that. -/
def Retraced (log : List (Deployment × Act Operation ServiceMove)) (i : Nat) (job : Job) : Prop :=
  ∀ (c : WebauthnCall) (x : Consuming), job.webauthn? = some c → c.consuming = some x →
    (∀ now candidates, x.phase = .lock now candidates → ∃ e ∈ log, Lists e i x now candidates) ∧
    ∀ now row, x.phase = .markUsed now row → ∃ candidates e₁ e₂, [e₁, e₂].Sublist log ∧
      Lists e₁ i x now candidates ∧ Picks e₂ i x now candidates (some row)

theorem consuming_retraced {log : List (Deployment × Act Operation ServiceMove)} {p : Deployment}
    (run : DeploymentRun S log p) : ∀ i job, p.calls[i]? = some job → Retraced log i job := by
  have idle : ∀ {log i job}, (∀ c, job.webauthn? = some c → c.consuming = none) →
      Retraced log i job := fun idle c x hj hx => nomatch (idle c hj).symm.trans hx
  refine Pool.call_history ?frame ?first ?admitted ?spawned ?turned run
  case frame =>
    intro log q a i job _ K c x hj hx
    obtain ⟨lists, picks⟩ := K c x hj hx
    refine ⟨fun now candidates hp => ?_, fun now row hp => ?_⟩
    · obtain ⟨e, he, listed⟩ := lists now candidates hp
      exact ⟨e, List.mem_append_left _ he, listed⟩
    · obtain ⟨candidates, e₁, e₂, order, picked⟩ := picks now row hp
      exact ⟨candidates, e₁, e₂, order.trans (List.sublist_append_left _ _), picked⟩
  case first => exact fun i job h => nomatch h
  case admitted => exact fun d r job h log i _ => idle fun c hc => (admitted_idle h hc).1
  case spawned =>
    intro log q i job m t _ _ h n hn log i _
    cases ceremony_turn h with
    | aside other same call spawned => exact idle fun c hc => nomatch (spawned n hn).symm.trans hc
    | _ => exact absurd hn List.not_mem_nil
  case turned =>
    intro log q i job m t run hi h K c x hj hx
    obtain ⟨c₀, w, write, rfl, rfl, step, _⟩ :=
      answered_turn h hj fun idle => nomatch idle.1.symm.trans hx
    have last : (q, Act.turn i (.statement w)) ∈ log ++ [(q, Act.turn i (.statement w))] :=
      List.mem_append_right _ (List.mem_singleton_self _)
    refine ⟨fun now candidates hp => ?_, fun now row hp => ?_⟩
    · obtain ⟨-, here, sampled, seen⟩ := step.listed hx hp
      exact ⟨_, last, w, c₀, rfl, hi, here, sampled, seen⟩
    · obtain ⟨-, candidates, here, chosen⟩ := step.locked hx hp
      obtain ⟨e, he, listed⟩ := (K c₀ _ rfl here).1 now candidates rfl
      refine ⟨candidates, e, (q, .turn i (.statement w)), ?_, listed, w, c₀, rfl, hi, here, chosen⟩
      exact (List.singleton_sublist.mpr he).append (List.Sublist.refl [_])

/-! ## Used challenges -/

/-- A stored challenge that has been used. -/
def Used (id : Id) (db : WebauthnDb) : Prop :=
  (∃ r ∈ db.challenges, r.id = id) ∧ ∀ r ∈ db.challenges, r.id = id → r.usedAt ≠ none

/-- Used is used for good. -/
theorem Used.step {id : Id} {db : WebauthnDb} {X : Webauthn} {held : Id → Bool} {w : World}
    {c c' : WebauthnCall} {write : Option WebauthnWrite} (h : Used id db)
    (step : CeremonyStep X db held w c c' write) : Used id (db.commitOption write) := by
  obtain ⟨⟨r, hr, same⟩, used⟩ := h
  cases step with
  | issue fresh =>
    refine ⟨⟨r, List.mem_append_left _ hr, same⟩, fun r' hr' same' => ?_⟩
    rcases List.mem_append.mp hr' with old | new
    · exact used r' old same'
    · obtain rfl := List.mem_singleton.mp new
      exact absurd (same.trans same'.symm) (hasKey_eq_false.mp fresh r hr)
  | @markUsed _ _ x now row =>
    refine ⟨?_, fun r' hr' same' => ?_⟩
    · by_cases hit : r.id = row.id
      · exact ⟨_, mem_updateWhere_of_pos hr (decide_eq_true hit), same⟩
      · exact ⟨r, mem_updateWhere_of_neg hr (decide_eq_false hit), same⟩
    · rcases mem_updateWhere_cases hr' with ⟨_, _, _, rfl⟩ | ⟨old, _⟩
      · exact Option.some_ne_none _
      · exact used r' old same'
  | _ => exact ⟨⟨r, hr, same⟩, used⟩

/-- At this step the options call stores this row. -/
def Issues (S : Services) (e : Deployment × Act Operation ServiceMove) (input : OptionsInput)
    (row : WebauthnChallenge) : Prop :=
  ∃ i m w options, e.2 = .turn i m ∧ m.world? = some w ∧
    e.1.calls[i]? = some (.webauthn (.options input (.insertChallenge options))) ∧
    row = createChallenge S.webauthn w.toWorld input.appId input.clientRef input.purpose
      options.challenge

/-- Every stored challenge was issued; only `used_at` may have changed since. -/
theorem stored_issued {log : List (Deployment × Act Operation ServiceMove)} {p : Deployment}
    (run : DeploymentRun S log p) : ∀ row ∈ p.store.webauthn.challenges,
      ∃ e ∈ log, ∃ input, Issues S e input { row with usedAt := none } := by
  induction run with
  | start => exact fun row h => absurd h List.not_mem_nil
  | @next log q q' a _ step ih =>
    intro row hr
    have old : ∀ {row' : WebauthnChallenge}, row' ∈ q.store.webauthn.challenges →
        { row with usedAt := none } = { row' with usedAt := none } →
        ∃ e ∈ log ++ [(q, a)], ∃ input, Issues S e input { row with usedAt := none } := by
      intro row' hr' same
      obtain ⟨e, he, input, issued⟩ := ih row' hr'
      exact ⟨e, List.mem_append_left _ he, input, same ▸ issued⟩
    rcases webauthn_stored step with same | ⟨i, m, w, c, c', write, rfl, hw, hi, step, same⟩
    · exact old (same ▸ hr) rfl
    · rw [same] at hr
      cases step with
      | @issue input options fresh =>
        rcases List.mem_append.mp hr with before | new
        · exact old before rfl
        · obtain rfl := List.mem_singleton.mp new
          exact ⟨_, List.mem_append_right _ (List.mem_singleton_self _), input, i, m, w, options,
            rfl, hw, hi, rfl⟩
      | markUsed =>
        rcases mem_updateWhere_cases hr with ⟨_, before, _, rfl⟩ | ⟨before, _⟩
        · exact old before rfl
        · exact old before rfl
      | _ => exact old hr rfl

/-! ## Single use -/

/-- What `consumeChallenge` returns to the call at a position, and the id of the row. -/
structure ReturnedChallenge where
  position : Nat
  consuming : Consuming
  id : Id
  challenge : Text
  deriving DecidableEq, Repr

/-- The challenge that a step returns to a verify call. -/
def returned? (e : Deployment × Act Operation ServiceMove) : Option ReturnedChallenge :=
  match e.2 with
  | .turn i (.statement w) => do
    let job ← e.1.calls[i]?
    let c ← job.webauthn?
    let x ← c.consuming
    match consumeChallenge e.1.store.webauthn (lockedChallenge (e.1.others i)) w.toWorld
        x.input.appId x.input.clientRef x.purpose x.phase with
    | (.returned (some challenge), some (.useChallenge id _)) => some ⟨i, x, id, challenge⟩
    | _ => none
  | _ => none

/-- A challenge is returned by the step that marks it. -/
theorem returned_marking {e : Deployment × Act Operation ServiceMove} {r : ReturnedChallenge}
    (h : returned? e = some r) :
    ∃ w c now row, e.2 = .turn r.position (.statement w) ∧
      e.1.calls[r.position]? = some (.webauthn c) ∧ c.consuming = some r.consuming ∧
      r.consuming.phase = .markUsed now row ∧ row.id = r.id ∧ row.challenge = r.challenge := by
  unfold returned? at h
  split at h
  · next i w act =>
    simp only [Option.bind_eq_bind, Option.bind_eq_some_iff] at h
    obtain ⟨job, hi, c, hj, x, hx, h⟩ := h
    obtain rfl := Job.eq_of_webauthn? hj
    split at h
    · next id now result =>
      obtain rfl := Option.some.inj h
      cases hp : x.phase with
      | snapshot =>
        rw [hp] at result
        exact nomatch (Prod.mk.inj result).1
      | lock now candidates =>
        rw [hp] at result
        unfold consumeChallenge at result
        dsimp only at result
        split at result <;> exact nomatch (Prod.mk.inj result).2
      | markUsed now' row =>
        rw [hp] at result
        obtain ⟨text, marked⟩ := Prod.mk.inj result
        refine ⟨w, c, now', row, act, hi, hx, rfl, ?_, ?_⟩
        · exact (WebauthnWrite.useChallenge.inj (Option.some.inj marked)).1
        · exact Option.some.inj (Consumed.returned.inj text)
    · exact nomatch h
  · exact nomatch h

theorem DeploymentRun.locked {log : List (Deployment × Act Operation ServiceMove)}
    {p : Deployment} (run : DeploymentRun S log p) :
    Pool.Good Job.challengeLocks (fun _ => True) Job.Locked p := by
  have start : Pool.Good Job.challengeLocks (fun _ => True) Job.Locked
      (⟨.empty, []⟩ : Deployment) :=
    ⟨trivial, (fun i c h => nomatch h), fun i j a b h => nomatch h⟩
  exact (challenge_discipline S).run start run

/-- A challenge is returned while it is there and unused, and afterwards it is used. -/
theorem returned_uses {log : List (Deployment × Act Operation ServiceMove)}
    {e : Deployment × Act Operation ServiceMove} {q : Deployment} {r : ReturnedChallenge}
    (run : DeploymentRun S log e.1) (step : e.1.step (deployment S) e.2 = some q)
    (h : returned? e = some r) : ∃ c now row, e.1.calls[r.position]? = some (.webauthn c) ∧
      c.consuming = some r.consuming ∧ r.consuming.phase = .markUsed now row ∧
      row.id = r.id ∧ row.challenge = r.challenge ∧ row ∈ e.1.store.webauthn.challenges ∧
      activeChallenge r.consuming.input.appId r.consuming.input.clientRef r.consuming.purpose now
        row = true ∧
      Used r.id q.store.webauthn := by
  obtain ⟨w, c, now, row, act, hi, hx, hp, sameId, sameText⟩ := returned_marking h
  obtain ⟨mem, active⟩ := run.locked.ok _ _ hi c _ now row rfl hx hp
  refine ⟨c, now, row, hi, hx, hp, sameId, sameText, mem, active, ?_⟩
  rw [act] at step
  obtain ⟨job, t, hi', turn, rfl⟩ := Pool.step_turn step
  obtain rfl := Option.some.inj (hi'.symm.trans hi)
  obtain ⟨⟨c', write⟩, hr, rfl⟩ := Option.map_eq_some_iff.mp turn
  obtain rfl := (webauthn_step hr).marking hx hp
  refine ⟨⟨_, mem_updateWhere_of_pos mem (decide_eq_true rfl), sameId⟩, fun r' hr' same => ?_⟩
  rcases mem_updateWhere_cases hr' with ⟨_, _, _, rfl⟩ | ⟨_, other⟩
  · exact Option.some_ne_none _
  · exact absurd (same.trans sameId.symm) (of_decide_eq_false other)

/-- A challenge that is active is for one app, client reference and purpose, unused and
unexpired. -/
theorem activeChallenge_iff {appId : Id} {clientRef : Text} {purpose : ChallengePurpose}
    {now : Time} {row : WebauthnChallenge} :
    activeChallenge appId clientRef purpose now row = true ↔ row.appId = appId ∧
      row.clientRef = clientRef ∧ row.purpose = purpose ∧ row.usedAt = none ∧
      now < row.expiresAt := decide_eq_true_iff

/-- What is returned was issued before for the app, client reference and purpose of the call, and
was not expired at the time that the call sampled. -/
theorem returned_issued {log : List (Deployment × Act Operation ServiceMove)}
    {e : Deployment × Act Operation ServiceMove} {q : Deployment} {r : ReturnedChallenge}
    (run : DeploymentRun S log e.1) (step : e.1.step (deployment S) e.2 = some q)
    (h : returned? e = some r) : ∃ row, row.id = r.id ∧ row.challenge = r.challenge ∧
      (∃ e₀ ∈ log, ∃ input, Issues S e₀ input row ∧ input.appId = r.consuming.input.appId ∧
        input.clientRef = r.consuming.input.clientRef ∧ input.purpose = r.consuming.purpose) ∧
      ∃ e₁ ∈ log, ∃ now candidates, Lists e₁ r.position r.consuming now candidates ∧
        now < row.expiresAt := by
  obtain ⟨c, now, row, hi, hx, hp, sameId, sameText, mem, active, _⟩ := returned_uses run step h
  obtain ⟨app, ref, purpose, unused, unexpired⟩ := activeChallenge_iff.mp active
  obtain ⟨e₀, he₀, input, issued⟩ := stored_issued run row mem
  have whole : { row with usedAt := none } = row := by rw [← unused]
  rw [whole] at issued
  obtain ⟨_, _, _, _, _, _, _, created⟩ := id issued
  obtain ⟨candidates, e₁, e₂, order, listed, _⟩ :=
    (consuming_retraced run _ _ hi c _ rfl hx).2 now row hp
  refine ⟨row, sameId, sameText, ⟨e₀, he₀, input, issued, ?_, ?_, ?_⟩, e₁,
    order.subset List.mem_cons_self, now, candidates, listed, unexpired⟩
  · exact (congrArg WebauthnChallenge.appId created).symm.trans app
  · exact (congrArg WebauthnChallenge.clientRef created).symm.trans ref
  · exact (congrArg WebauthnChallenge.purpose created).symm.trans purpose

/-- In every run each stored challenge, known by its id, is returned at most once; and only to a
call of the app, client reference and purpose that it was issued for, if it was not expired at the
time that the call sampled. -/
theorem challenge_single_use {log : List (Deployment × Act Operation ServiceMove)}
    {p : Deployment} (run : DeploymentRun S log p) :
    (p.store.webauthn.challenges.map (·.id)).Nodup ∧
    ((log.filterMap returned?).map (·.id)).Nodup ∧
    ∀ log₁ e log₂, log = log₁ ++ e :: log₂ → ∀ r, returned? e = some r →
      ∃ row, row.id = r.id ∧ row.challenge = r.challenge ∧
        (∃ e₀ ∈ log₁, ∃ input, Issues S e₀ input row ∧ input.appId = r.consuming.input.appId ∧
          input.clientRef = r.consuming.input.clientRef ∧ input.purpose = r.consuming.purpose) ∧
        ∃ e₁ ∈ log₁, ∃ now candidates, Lists e₁ r.position r.consuming now candidates ∧
          now < row.expiresAt := by
  refine ⟨run.inv.webauthn.challengeIds, ?_, ?_⟩
  · rw [List.Nodup, List.pairwise_map, List.pairwise_filterMap]
    refine pairwise_of_splits ?_
    rintro log₁ e log₂ rfl e' he' r returned r' again same
    obtain ⟨q, before, step, after⟩ := run.split_at rfl
    obtain ⟨_, _, _, _, _, _, _, _, _, _, used⟩ := returned_uses before step returned
    obtain ⟨log₃, log₄, rfl⟩ := List.append_of_mem he'
    obtain ⟨q', between, step', _⟩ := after.split_at rfl
    obtain ⟨_, now, row, _, _, _, sameId, _, mem, active, _⟩ :=
      returned_uses ((before.next step).trans between) step' again
    have unused := (activeChallenge_iff.mp active).2.2.2.1
    have still : Used r.id e'.1.store.webauthn :=
      webauthn_invariant (P := Used r.id) (fun h step => h.step step) between used
    exact still.2 row mem (sameId.trans same.symm) unused
  · rintro log₁ e log₂ rfl r returned
    obtain ⟨q, before, step, _⟩ := run.split_at rfl
    exact returned_issued before step returned

namespace CeremonyScript

/-- A library whose challenges are drawn numbers; a response carries the counter of the
authenticator and the challenge that it was made for. -/
def library : WebauthnLibrary where
  generateRegistrationOptions _ _ _ _ _ random := ⟨[.ofNat (random 0)], []⟩
  verifyRegistrationResponse response expected :=
    some (if response.body.tail = expected.challenge then
      some ⟨response.id, [], (response.body.headD 0).toNat, none, false, false⟩ else none)
  generateAuthenticationOptions _ _ random := ⟨[.ofNat (random 0)], []⟩
  verifyAuthenticationResponse response expected stored :=
    let asserted := (response.body.headD 0).toNat
    some (if response.body.tail = expected.challenge ∧
      ((asserted = 0 ∧ stored.counter = 0) ∨ stored.counter < asserted) then some asserted else none)
  hashCredentialId := id

def services : Services where
  env := .ascii
  webhooks := WorkerScript.service
  worker := WorkerScript.guardedPlatform
  webauthn := ⟨⟨true, some (text "example.com"), none, text "https://example.com", 300,
    challengeTtl_default⟩, library⟩

/-- Clocks at `n`, and identifiers and challenges drawn from `n` on. -/
def worldAt (n : Nat) : ServiceWorld :=
  ⟨⟨⟨n, n, (n + ·), fun _ => n, 0⟩, WorkerScript.dnsAt false, fun _ => 0⟩, n, .ok 200⟩

def app : Id := newId .app 1

def user : Text := text "user_42"

def options (purpose : ChallengePurpose) : Act Operation ServiceMove :=
  .arrive (.webauthn (.options ⟨purpose, app, user, none⟩))

/-- The response of the user's authenticator for the challenge drawn at `n`. -/
def response (counter n : Nat) : VerifyInput :=
  ⟨app, user, ⟨text "cred", [.ofNat counter, .ofNat n]⟩⟩

/-- `k` turns of the job at position `i` at the time `n`. -/
def turns (i k n : Nat) : List (Act Operation ServiceMove) :=
  List.replicate k (.turn i (.statement (worldAt n)))

def result (acts : List (Act Operation ServiceMove)) :
    Option (List (Deployment × Act Operation ServiceMove) × Deployment) :=
  exec (Pool.step (deployment services)) ⟨.empty, []⟩ acts

theorem run {acts : List (Act Operation ServiceMove)} (h : (result acts).isSome = true) :
    DeploymentRun services ((result acts).get h).1 ((result acts).get h).2 :=
  run_of_exec (Option.some_get h).symm

/-- Two calls verify the same response at the same time. -/
def doubled : List (Act Operation ServiceMove) :=
  [options .register] ++ turns 0 2 1000 ++
  [.arrive (.webauthn (.registerVerify (response 0 1000))),
    .arrive (.webauthn (.registerVerify (response 0 1000)))] ++
  turns 1 2 2000 ++ turns 2 2 2000 ++ turns 1 1 2000 ++ turns 2 1 2000 ++ turns 1 1 2000 ++
  turns 2 1 2000

theorem doubled_runs : (result doubled).isSome = true := by decide +kernel

end CeremonyScript

/-- Of two calls that verify the same response at the same time, one gets the challenge. -/
theorem challenge_single_use_script : ∃ log p, DeploymentRun CeremonyScript.services log p ∧
    (∃ r, log.filterMap returned? = [r] ∧ r.position = 1 ∧ r.challenge = [1000]) ∧
    p.calls[1]? = some (.webauthn (.register (CeremonyScript.response 0 1000)
      (.selectExisting (some [1000])))) ∧
    p.calls[2]? = some (.webauthn (.register (CeremonyScript.response 0 1000)
      (.done (.error challengeInvalid)))) ∧
    ((log.filterMap returned?).map (·.id)).Nodup := by
  have run := CeremonyScript.run CeremonyScript.doubled_runs
  obtain ⟨_, once, _⟩ := challenge_single_use run
  refine ⟨_, _, run, ⟨⟨1, ⟨CeremonyScript.response 0 1000, .register,
    .markUsed 2000 ⟨newId .webauthnChallenge 1000, CeremonyScript.app, CeremonyScript.user, [1000],
      .register, 301000, none, 1000⟩⟩, newId .webauthnChallenge 1000, [1000]⟩, ?_, rfl, rfl⟩, ?_, ?_,
    once⟩
  all_goals decide +kernel

end Syrotp
