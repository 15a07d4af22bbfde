import Syrotp.Server.Proofs.Lifecycle

/-!
# The cap on pending verifications

A start counts the pending rows of its phone and inserts later, in the same transaction. Between
the two it holds the advisory lock of the phone, so no other start inserts there, and every other
transaction can only take rows out of the count.
-/

namespace Syrotp

variable {env : Env}

/-! ## The count -/

/-- A write raises the count of a phone only by inserting a verification of it, and then by one. -/
theorem phonePending_commit {db : Db} {w : Write} (J : Justified env db w) (appId : Id)
    (phoneE164 : Text) :
    phonePending (db.commit w) appId phoneE164 ≤ phonePending db appId phoneE164 ∨
      ∃ row, w = .insertVerification row ∧ row.appId = appId ∧ row.phoneE164 = phoneE164 ∧
        phonePending (db.commit w) appId phoneE164 = phonePending db appId phoneE164 + 1 := by
  cases w with
  | insertVerification row =>
    have added : phonePending (db.commit (.insertVerification row)) appId phoneE164 =
        phonePending db appId phoneE164 + [row].countP fun x =>
          decide (x.appId = appId ∧ x.phoneE164 = phoneE164 ∧ x.status = .pending) :=
      List.countP_append
    by_cases mine : row.appId = appId ∧ row.phoneE164 = phoneE164
    · refine .inr ⟨row, rfl, mine.1, mine.2, ?_⟩
      rw [added]
      simp [mine, Insertable.pending J]
    · refine .inl ?_
      rw [added]
      have other : ¬(row.appId = appId ∧ row.phoneE164 = phoneE164 ∧ row.status = .pending) :=
        fun h => mine ⟨h.1, h.2.1⟩
      simp [other]
  | resolveVerification row event deliveries inbound =>
    refine .inl ?_
    obtain ⟨_, _, _, _, _, _, _, resolves, _⟩ := J.resolve
    show List.countP _ (List.map _ _) ≤ List.countP _ _
    rw [List.countP_map]
    refine List.countP_mono_left fun x _ counted => ?_
    by_cases hit : x.id = row.id
    · simp [hit, resolves.not_pending] at counted
    · simpa [hit] using counted
  | _ => exact .inl (Nat.le_refl _)

/-! ## Starts that have counted -/

/-- What a start that has counted and not yet committed knows. -/
def StartPhase.Room (env : Env) (db : Db) (input : StartVerificationInput) : StartPhase → Prop
  | .pickPreferred _ _ | .pickAny _ | .insert _ _ =>
    phonePending db input.appId input.phoneE164 < env.config.maxPendingPerPhone
  | .commit _ row => row.appId = input.appId ∧ row.phoneE164 = input.phoneE164 ∧
    phonePending db input.appId input.phoneE164 < env.config.maxPendingPerPhone
  | _ => True

/-- Such a start holds the lock of its phone, or has nothing to lose. -/
theorem StartPhase.Room.cases {db : Db} {input : StartVerificationInput} {phase : StartPhase}
    (h : phase.Room env db input) : .advisory input.appId input.phoneE164 ∈ phase.locks input ∨
      ∀ db', phase.Room env db' input := by
  cases phase with
  | pickPreferred | pickAny | insert | commit => exact .inl List.mem_cons_self
  | _ => exact .inr fun _ => trivial

theorem StartPhase.Room.mono {db db' : Db} {input : StartVerificationInput} {phase : StartPhase}
    (h : phase.Room env db input)
    (fewer : phonePending db' input.appId input.phoneE164 ≤
      phonePending db input.appId input.phoneE164) : phase.Room env db' input := by
  cases phase with
  | pickPreferred | pickAny | insert => exact Nat.lt_of_le_of_lt fewer h
  | commit receiver row => exact ⟨h.1, h.2.1, Nat.lt_of_le_of_lt fewer h.2.2⟩
  | _ => trivial

/-- A statement that does not commit carries the room on, and the count establishes it. -/
theorem StartStep.room {v : View} {w : World} {input : StartVerificationInput}
    {phase phase' : StartPhase} {x : Option Write}
    (h : StartStep env v w input phase phase' x) (before : phase.Room env v.db input) :
    phase'.Room env (v.db.commitOption x) input := by
  cases h with
  | preferring below => exact below
  | counted below => exact below
  | preferred => exact before
  | fallback => exact before
  | picked => exact before
  | inserted => exact ⟨rfl, rfl, before⟩
  | collided =>
    unfold afterCollision
    split <;> trivial
  | _ => trivial

/-! ## The invariant -/

/-- No phone is over the cap, and whoever has counted still has room. -/
structure Server.Capped (env : Env) (p : Server) : Prop where
  counts : ∀ appId phoneE164,
    phonePending p.store appId phoneE164 ≤ env.config.maxPendingPerPhone
  rooms : ∀ (i : Nat) (input : StartVerificationInput) (phase : StartPhase),
    p.calls[i]? = some (.start input phase) → phase.Room env p.store input

theorem Call.start_of_crashed {c : Call} {input : StartVerificationInput} {phase : StartPhase}
    (h : c.crashed = (Call.start input phase).crashed) : ∃ phase', c = .start input phase' := by
  cases c with
  | start input' phase' =>
    obtain ⟨rfl, _⟩ := Call.start.inj h
    exact ⟨phase', rfl⟩
  | _ => exact nomatch h

/-- The turn of a start keeps the room of its next stage. -/
theorem TurnCases.room {db : Db} {others : List Call} {c : Call} {m : Move} {t : Turn Db Call}
    (h : TurnCases env db others c m t) {input : StartVerificationInput} {phase' : StartPhase}
    (after : t.call = .start input phase')
    (before : ∀ phase, c = .start input phase → phase.Room env db input) :
    phase'.Room env t.store input := by
  obtain ⟨phase, rfl⟩ := Call.start_of_crashed (h.crashed.symm.trans (congrArg _ after))
  cases h with
  | statement _ _ _ _ ran =>
    obtain ⟨⟨phase'', x⟩, hr, rfl⟩ := Option.map_eq_some_iff.mp ran
    obtain ⟨_, rfl⟩ := Call.start.inj after
    exact (startVerification_step hr).room (before _ rfl)
  | error | lost | crash =>
    obtain ⟨_, rfl⟩ := Call.start.inj after
    trivial

theorem Server.Capped.step {p q : Server} {a : Act Request Move} (good : p.Good env)
    (capped : p.Capped env) (hs : p.step (server env) a = some q) : q.Capped env := by
  cases a with
  | arrive r =>
    obtain ⟨c, hc, rfl⟩ := Pool.step_arrive hs
    refine ⟨capped.counts, fun i input phase hi => ?_⟩
    rcases List.mem_append.mp (List.mem_of_getElem? hi) with old | new
    · obtain ⟨j, hj⟩ := List.mem_iff_getElem?.mp old
      exact capped.rooms j input phase hj
    · have fresh := accept_isNew hc
      rw [← List.mem_singleton.mp new] at fresh
      cases phase <;> trivial
  | turn i m =>
    obtain ⟨c, t, hc, ht, rfl⟩ := Pool.step_turn hs
    have cases' := turn_cases (good.inv) (good.ok i c hc) ht
    have acting : ∀ input phase, t.call = .start input phase → phase.Room env t.store input :=
      fun input phase after => cases'.room after fun phase' same =>
        capped.rooms i input phase' (same ▸ hc)
    have spawned : ∀ n ∈ t.spawned, ∃ id, n = .expire id .update := by
      intro n hn
      cases cases' with
      | statement _ _ _ spawned _ => exact spawned n hn
      | _ => exact nomatch hn
    rcases turn_write good.inv (good.ok i c hc) ht with same | ⟨x, written, J, _, origin⟩
    · refine ⟨fun appId phoneE164 => same ▸ capped.counts appId phoneE164, ?_⟩
      intro j input phase hj
      rcases Pool.turned_call hc hj with ⟨_, hj⟩ | ⟨_, after⟩ | ⟨_, new⟩
      · exact same ▸ capped.rooms j input phase hj
      · exact acting input phase after.symm
      · obtain ⟨_, same⟩ := spawned _ new
        exact nomatch same
    · refine ⟨fun appId phoneE164 => ?_, fun j input phase hj => ?_⟩
      · rw [written]
        rcases phonePending_commit J appId phoneE164 with fewer | ⟨row, rfl, rfl, rfl, more⟩
        · exact Nat.le_trans fewer (capped.counts appId phoneE164)
        · -- only a start inserts, and it has counted less than the cap
          obtain ⟨input, receiver, rfl⟩ := origin.insertion row rfl
          obtain ⟨app, phone, below⟩ := capped.rooms i input _ hc
          rw [more, app, phone]
          omega
      · rcases Pool.turned_call hc hj with ⟨ne, hj⟩ | ⟨_, after⟩ | ⟨_, new⟩
        · have room := capped.rooms j input phase hj
          rcases room.cases with locked | free
          · rw [written]
            rcases phonePending_commit J input.appId input.phoneE164 with
              fewer | ⟨row, rfl, app, phone, _⟩
            · exact room.mono fewer
            · -- the inserting start holds the same lock
              obtain ⟨input', receiver, rfl⟩ := origin.insertion row rfl
              obtain ⟨app', phone', _⟩ := capped.rooms i input' _ hc
              have clash : Lock.advisory input.appId input.phoneE164 ∈
                  (Call.start input' (.commit receiver row)).locks := by
                rw [← app, ← phone, app', phone']
                exact List.mem_cons_self
              exact absurd (mem_tokens_lock.mpr clash)
                (good.exclusive j i _ _ hj hc ne _ (mem_tokens_lock.mpr locked))
          · exact free _
        · exact acting input phase after.symm
        · obtain ⟨_, same⟩ := spawned _ new
          exact nomatch same

theorem ServerRun.capped {log : List (Server × Act Request Move)} {p : Server}
    (run : ServerRun env log p) : p.Capped env := by
  induction run with
  | start =>
    refine ⟨fun appId phoneE164 => Nat.zero_le _, fun i input phase hi => ?_⟩
    exact absurd hi (by simp [Server.init])
  | @next log p q a run hs ih => exact ih.step (ServerRun.good run) hs

/-! ## The cap -/

/-- In every reachable server, no phone has more pending verifications in an app than the cap. -/
theorem pending_capped {log : List (Server × Act Request Move)} {p : Server}
    (run : ServerRun env log p) (appId : Id) (phoneE164 : Text) :
    phonePending p.store appId phoneE164 ≤ env.config.maxPendingPerPhone :=
  run.capped.counts appId phoneE164

namespace Script

/-- Clocks at `n`, and a code that depends on `k`. -/
def coded (n k : Nat) : World := { world n with random := fun _ => k }

/-- A bound phone starts three verifications, as many as the default cap: calls 3 to 5. -/
def crowded : List (Act Request Move) :=
  bound ++
  [.arrive (.startVerification start)] ++ turns 3 6 (coded 1030 0) ++
  [.arrive (.startVerification start)] ++ turns 4 6 (coded 1040 1) ++
  [.arrive (.startVerification start)] ++ turns 5 6 (coded 1050 2)

theorem crowded_runs : (result crowded).isSome = true := by decide +kernel

theorem crowded_full :
    phonePending ((result crowded).get crowded_runs).2.store app phone = 3 := by decide +kernel

end Script

/-- The cap is reached. -/
theorem pending_capped_script : ∃ log p, ServerRun .ascii log p ∧
    phonePending p.store Script.app Script.phone = 3 ∧
    phonePending p.store Script.app Script.phone ≤ Env.ascii.config.maxPendingPerPhone :=
  ⟨_, _, Script.run _ Script.crowded_runs, Script.crowded_full,
    pending_capped (Script.run _ Script.crowded_runs) Script.app Script.phone⟩

end Syrotp
