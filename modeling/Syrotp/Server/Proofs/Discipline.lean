import Syrotp.Server.Proofs.Emissions

/-!
# The server keeps its invariant

The statements of all calls together are a `Pool.Discipline`, so the database invariant, the
assertion of every call and the ownership of every token hold in every reachable server.
-/

namespace Syrotp

section

variable {env : Env} {v : View} {w : World}

theorem maintain_lawful {m : Maintenance} {x : Write} (h : m.write? v = some x) :
    Lawful env v (.maintain m .ready) (.maintain m (.done ())) (some x) ∧
      Origin env v.db (.maintain m .ready) (some x) := by
  cases m with
  | putReceiver row =>
    simp only [Maintenance.write?, Option.ite_none_left_eq_some, Option.some.injEq] at h
    obtain ⟨_, rfl⟩ := h
    exact ⟨.write trivial (fun _ hk => nomatch hk) trivial rfl (fun _ hi => nomatch hi),
      .other rfl⟩
  | createEndpoint row =>
    simp only [Maintenance.write?, Option.ite_none_left_eq_some, Option.some.injEq,
      Bool.not_eq_true] at h
    obtain ⟨fresh, rfl⟩ := h
    exact ⟨.write fresh (fun _ hk => nomatch hk) trivial rfl (fun _ hi => nomatch hi),
      .other rfl⟩
  | deleteEndpoint appId id =>
    simp only [Maintenance.write?, Option.ite_none_left_eq_some, Option.some.injEq] at h
    obtain ⟨_, rfl⟩ := h
    exact ⟨.write trivial (fun _ hk => nomatch hk) trivial rfl (fun _ hi => nomatch hi),
      .other rfl⟩

/-- What a statement of a call leaves behind is lawful, and it starts nothing but expiries. -/
theorem statement_lawful (I : Db.Inv env v.db) {c : Call} (ok : c.Ok env v.db)
    {t : Turn Db Call} (h : c.statement env v w = some t) :
    (∃ x, t.store = v.db.commitOption x ∧ Lawful env v c t.call x ∧ Origin env v.db c x) ∧
      ∀ n ∈ t.spawned, ∃ id, n = .expire id .update := by
  have expiries : ∀ (due : Option Id), ∀ n ∈ due.toList.map (Call.expire · .update),
      ∃ id, n = .expire id .update := by
    intro due n hn
    obtain ⟨id, _, rfl⟩ := List.mem_map.mp hn
    exact ⟨id, rfl⟩
  cases c with
  | start input phase =>
    obtain ⟨⟨phase', x⟩, hr, rfl⟩ := Option.map_eq_some_iff.mp h
    refine ⟨⟨x, rfl, startVerification_lawful I ok hr, ?_⟩, fun _ hn => nomatch hn⟩
    rcases startVerification_origin hr with rfl | ⟨receiver, row, rfl, rfl⟩
    · exact .none
    · refine ⟨(fun _ _ _ _ h => nomatch h), fun row' same => ?_, (fun _ _ h => nomatch h),
        fun _ _ _ h => nomatch h⟩
      obtain rfl := Write.insertVerification.inj (Option.some.inj same)
      exact ⟨input, receiver, rfl⟩
  | rejected error => exact nomatch h
  | inbound input phase =>
    obtain ⟨⟨phase', x⟩, hr, rfl⟩ := Option.map_eq_some_iff.mp h
    exact ⟨⟨x, rfl, processInbound_lawful I ok hr, (processInbound_emission hr).2⟩,
      fun _ hn => nomatch hn⟩
  | cancel appId id phase =>
    obtain ⟨⟨phase', x, expiry⟩, hr, rfl⟩ := Option.map_eq_some_iff.mp h
    exact ⟨⟨x, rfl, cancelVerification_lawful ok hr, (cancelVerification_emission env hr).2⟩,
      expiries expiry⟩
  | expire id phase =>
    obtain ⟨⟨phase', x⟩, hr, rfl⟩ := Option.map_eq_some_iff.mp h
    exact ⟨⟨x, rfl, lazyExpireAndEmit_lawful ok hr, (lazyExpireAndEmit_emission env hr).2⟩,
      fun _ hn => nomatch hn⟩
  | read r phase =>
    cases phase with
    | select =>
      obtain rfl := Option.some.inj h
      exact ⟨⟨none, rfl, .read trivial (fun _ hl => nomatch hl) (fun _ hi => nomatch hi), .none⟩,
        fun _ hn => nomatch hn⟩
    | tell selected =>
      obtain rfl := Option.some.inj h
      exact ⟨⟨none, rfl, .read trivial (fun _ hl => nomatch hl) (fun _ hi => nomatch hi), .none⟩,
        expiries _⟩
    | _ => exact nomatch h
  | bind input phase =>
    obtain ⟨⟨phase', x⟩, hr, rfl⟩ := Option.map_eq_some_iff.mp h
    refine ⟨⟨x, rfl, startBinding_lawful ok hr, ?_⟩, fun _ hn => nomatch hn⟩
    rcases startBinding_origin hr with rfl | ⟨row, rfl⟩
    · exact .none
    · exact .other rfl
  | revoke appId id phase =>
    cases phase with
    | ready =>
      obtain rfl := Option.some.inj h
      refine ⟨⟨_, rfl, ?_⟩, fun _ hn => nomatch hn⟩
      simp only [revokeBinding]
      split
      · exact ⟨.read trivial (fun _ hl => nomatch hl) (fun _ hi => nomatch hi), .none⟩
      · refine ⟨.write trivial (fun _ hk => nomatch hk) trivial rfl (fun _ hi => nomatch hi), ?_⟩
        refine ⟨(fun _ _ _ _ h => nomatch h), (fun _ h => nomatch h), (fun _ _ h => nomatch h),
          fun appId' id' t same => ?_⟩
        obtain ⟨rfl, rfl, _⟩ := Write.revokeBinding.inj (Option.some.inj same)
        rfl
    | _ => exact nomatch h
  | maintain m phase =>
    cases phase with
    | ready =>
      obtain ⟨x, hx, rfl⟩ := Option.map_eq_some_iff.mp h
      obtain ⟨lawful, origin⟩ := maintain_lawful hx
      exact ⟨⟨some x, rfl, lawful, origin⟩, fun _ hn => nomatch hn⟩
    | _ => exact nomatch h

theorem statement_continues {c : Call} {t : Turn Db Call} (h : c.statement env v w = some t) :
    Continues v w c t.call := by
  cases c with
  | inbound input phase =>
    obtain ⟨⟨phase', x⟩, hr, rfl⟩ := Option.map_eq_some_iff.mp h
    exact (processInbound_emission hr).1
  | cancel appId id phase =>
    obtain ⟨⟨phase', x, expiry⟩, hr, rfl⟩ := Option.map_eq_some_iff.mp h
    exact (cancelVerification_emission env hr).1
  | expire id phase =>
    obtain ⟨⟨phase', x⟩, hr, rfl⟩ := Option.map_eq_some_iff.mp h
    exact (lazyExpireAndEmit_emission env hr).1
  | rejected error => exact nomatch h
  | start input phase =>
    obtain ⟨_, _, rfl⟩ := Option.map_eq_some_iff.mp h
    exact .of_none rfl
  | bind input phase =>
    obtain ⟨_, _, rfl⟩ := Option.map_eq_some_iff.mp h
    exact .of_none rfl
  | read r phase =>
    cases phase with
    | select | tell =>
      obtain rfl := Option.some.inj h
      exact .of_none rfl
    | _ => exact nomatch h
  | revoke appId id phase =>
    cases phase with
    | ready =>
      obtain rfl := Option.some.inj h
      exact .of_none rfl
    | _ => exact nomatch h
  | maintain m phase =>
    cases phase with
    | ready =>
      obtain ⟨_, _, rfl⟩ := Option.map_eq_some_iff.mp h
      exact .of_none rfl
    | _ => exact nomatch h

/-- A call that failed or caught an exception relies on nothing and owns nothing. -/
theorem Call.thrown_idle (env : Env) (c : Call) (db : Db) :
    c.thrown.Ok env db ∧ c.thrown.tokens = [] := by
  cases c with
  | inbound input phase => cases phase <;> exact ⟨trivial, rfl⟩
  | _ => exact ⟨trivial, rfl⟩

theorem Call.crashed_idle (env : Env) (c : Call) (db : Db) :
    c.crashed.Ok env db ∧ c.crashed.tokens = [] := by
  cases c <;> exact ⟨trivial, rfl⟩

end

/-- How a turn goes: a lawful statement, or a failure before or after one. -/
inductive TurnCases (env : Env) (db : Db) (others : List Call) (c : Call) : Move → Turn Db Call →
    Prop
  | statement {w t x} : t.store = db.commitOption x → Lawful env (viewOf db others) c t.call x →
      Origin env db c x → (∀ n ∈ t.spawned, ∃ id, n = .expire id .update) →
      c.statement env (viewOf db others) w = some t → TurnCases env db others c (.statement w) t
  | error : c.inFlight = true → TurnCases env db others c .error ⟨db, c.thrown, []⟩
  | lost {w t x} : t.store = db.commitOption x → Lawful env (viewOf db others) c t.call x →
      Origin env db c x → c.statement env (viewOf db others) w = some t →
      TurnCases env db others c (.lost w) ⟨t.store, c.thrown, []⟩
  | crash : c.inFlight = true → TurnCases env db others c .crash ⟨db, c.crashed, []⟩

theorem turn_cases {env : Env} {db : Db} {others : List Call} {c : Call} {m : Move}
    {t : Turn Db Call} (I : Db.Inv env db) (ok : c.Ok env db)
    (h : c.turn env db others m = some t) : TurnCases env db others c m t := by
  cases m with
  | statement w =>
    obtain ⟨⟨x, hx, lawful, origin⟩, spawned⟩ := statement_lawful (v := viewOf db others) I ok h
    exact .statement hx lawful origin spawned h
  | error =>
    simp only [Call.turn, Option.ite_none_right_eq_some, Option.some.injEq] at h
    obtain ⟨flying, rfl⟩ := h
    exact .error flying
  | lost w =>
    obtain ⟨t', ht', rfl⟩ := Option.map_eq_some_iff.mp h
    obtain ⟨⟨x, hx, lawful, origin⟩, _⟩ := statement_lawful (v := viewOf db others) I ok ht'
    exact .lost hx lawful origin ht'
  | crash =>
    simp only [Call.turn, Option.ite_none_right_eq_some, Option.some.injEq] at h
    obtain ⟨flying, rfl⟩ := h
    exact .crash flying

/-- What a turn does to the database: nothing, or one justified write within the call's tokens. -/
theorem turn_write {env : Env} {db : Db} {others : List Call} {c : Call} {m : Move}
    {t : Turn Db Call} (I : Db.Inv env db) (ok : c.Ok env db)
    (h : c.turn env db others m = some t) : t.store = db ∨
      ∃ x, t.store = db.commit x ∧ Justified env db x ∧ (∀ k ∈ x.tokens, k ∈ c.tokens) ∧
        Origin env db c (some x) := by
  have lawful : ∀ {d : Db} {c' : Call} {x : Option Write}, d = db.commitOption x →
      Lawful env (viewOf db others) c c' x → Origin env db c x → d = db ∨
      ∃ x, d = db.commit x ∧ Justified env db x ∧ (∀ k ∈ x.tokens, k ∈ c.tokens) ∧
        Origin env db c (some x) := by
    intro d c' x hx lawful origin
    cases x with
    | none => exact .inl hx
    | some x => exact .inr ⟨x, hx, lawful.justified x rfl, lawful.within x rfl, origin⟩
  cases turn_cases I ok h with
  | statement hx L F _ _ => exact lawful hx L F
  | error => exact .inl rfl
  | lost hx L F _ => exact lawful hx L F
  | crash => exact .inl rfl

/-! ## Calls keep their subject -/

/-- A turn changes the stage of a call, not what it is about: crashed, both look the same. -/
theorem TurnCases.crashed {env : Env} {db : Db} {others : List Call} {c : Call} {m : Move}
    {t : Turn Db Call} (h : TurnCases env db others c m t) : t.call.crashed = c.crashed := by
  have failed : c.thrown.crashed = c.crashed ∧ c.crashed.crashed = c.crashed := by
    cases c <;> exact ⟨rfl, rfl⟩
  cases h with
  | statement _ _ _ _ ran =>
    cases c with
    | rejected error => exact nomatch ran
    | read r phase =>
      cases phase with
      | select | tell => exact Option.some.inj ran ▸ rfl
      | _ => exact nomatch ran
    | revoke appId id phase =>
      cases phase with
      | ready => exact Option.some.inj ran ▸ rfl
      | _ => exact nomatch ran
    | maintain m phase =>
      cases phase with
      | ready =>
        obtain ⟨_, _, rfl⟩ := Option.map_eq_some_iff.mp ran
        rfl
      | _ => exact nomatch ran
    | _ =>
      obtain ⟨_, _, rfl⟩ := Option.map_eq_some_iff.mp ran
      rfl
  | error => exact failed.1
  | lost => exact failed.1
  | crash => exact failed.2

theorem Call.inbound_of_crashed {c : Call} {input : MatchInput} {phase : InboundPhase}
    (h : c.crashed = (Call.inbound input phase).crashed) : ∃ phase', c = .inbound input phase' := by
  cases c with
  | inbound input' phase' =>
    obtain ⟨rfl, _⟩ := Call.inbound.inj h
    exact ⟨phase', rfl⟩
  | _ => exact nomatch h

/-- The proof obligations of the server. -/
theorem server_discipline (env : Env) :
    Pool.Discipline (server env) Call.tokens (Db.Inv env) (Call.Ok env) where
  admitted := by
    intro db r c _ h
    cases r with
    | startVerification r =>
      simp only [server, accept] at h
      split at h <;> obtain rfl := Option.some.inj h
      · exact ⟨trivial, rfl⟩
      · next input accepted =>
        refine ⟨?_, rfl⟩
        simp only [StartRequest.toInput] at accepted
        split at accepted
        · cases accepted
        · split at accepted
          · cases accepted
          · next n normalized =>
            obtain rfl := Except.ok.inj accepted
            exact ⟨r.phone, n, normalized, rfl⟩
    | inbound receiverId body =>
      simp only [server, accept] at h
      split at h
      · cases h
      · obtain rfl := Option.some.inj h
        exact ⟨trivial, rfl⟩
    | startBinding input =>
      obtain rfl := Option.some.inj h
      simp only [startBindingEntry]
      split <;> exact ⟨trivial, rfl⟩
    | _ =>
      obtain rfl := Option.some.inj h
      exact ⟨trivial, rfl⟩
  store := by
    intro db others c m t S h
    rcases turn_write S.inv S.self h with same | ⟨x, written, justified, _⟩
    · exact same ▸ S.inv
    · exact written ▸ S.inv.commit justified
  self := by
    intro db others c m t S h
    cases turn_cases S.inv S.self h with
    | statement hx L _ _ _ => exact hx ▸ L.ok
    | error => exact (c.thrown_idle env db).1
    | lost => exact (c.thrown_idle env _).1
    | crash => exact (c.crashed_idle env db).1
  spawned := by
    intro db others c m t S h n hn
    cases turn_cases S.inv S.self h with
    | statement _ _ _ spawned _ =>
      obtain ⟨id, rfl⟩ := spawned n hn
      exact ⟨trivial, rfl⟩
    | _ => cases hn
  frame := by
    intro db others c m t S h o ho
    rcases turn_write S.inv S.self h with same | ⟨x, written, justified, within, _⟩
    · exact same ▸ S.theirs o ho
    · exact written ▸ (S.theirs o ho).commit justified
        fun k mine written => S.apart o ho k (within k written) mine
  acquire := by
    intro db others c m t S h k hk
    cases turn_cases S.inv S.self h with
    | @statement _ t _ _ L _ _ _ =>
      cases k with
      | lock l =>
        refine (L.locks l (mem_tokens_lock.mp hk)).imp mem_tokens_lock.mpr fun free o ho held => ?_
        have taken : (viewOf db others).held l = true :=
          List.any_eq_true.mpr ⟨o, ho, decide_eq_true (mem_tokens_lock.mp held)⟩
        rw [free] at taken
        contradiction
      | stored i =>
        refine (L.stored i (mem_tokens_stored.mp hk)).imp mem_tokens_stored.mpr
          fun fresh o ho owned => ?_
        have exists' := (S.theirs o ho).stored_mem (mem_tokens_stored.mp owned)
        rw [show hasKey _ i db.inboundSms = false from fresh] at exists'
        contradiction
    | error => simp [(c.thrown_idle env db).2] at hk
    | lost => simp [(c.thrown_idle env db).2] at hk
    | crash => simp [(c.crashed_idle env db).2] at hk

/-- What holds of every reachable server. -/
abbrev Server.Good (env : Env) : Server → Prop :=
  Pool.Good Call.tokens (Db.Inv env) (Call.Ok env)

theorem Server.good_init (env : Env) : Server.Good env .init where
  inv := .empty env
  ok := fun i c h => by simp [Server.init] at h
  exclusive := fun i j a b h => by simp [Server.init] at h

theorem ServerRun.good {env : Env} {log : List (Server × Act Request Move)} {p : Server}
    (run : ServerRun env log p) : p.Good env :=
  (server_discipline env).run (Server.good_init env) run

/-- The stages in which calls come into being. -/
def Call.isNew : Call → Bool
  | .start _ .checkBinding | .rejected _ | .inbound _ .insert | .cancel _ _ .update
  | .expire _ .update | .read _ .select | .bind _ (.selectReceiver _) | .bind _ (.done _)
  | .revoke _ _ .ready | .maintain _ .ready => true
  | _ => false

theorem accept_isNew {env : Env} {db : Db} {r : Request} {c : Call} (h : accept env db r = some c) :
    c.isNew = true := by
  cases r with
  | startVerification r =>
    simp only [accept] at h
    split at h <;> obtain rfl := Option.some.inj h <;> rfl
  | inbound receiverId body =>
    simp only [accept] at h
    split at h
    · exact nomatch h
    · obtain rfl := Option.some.inj h
      rfl
  | startBinding input =>
    obtain rfl := Option.some.inj h
    simp only [startBindingEntry]
    split <;> rfl
  | _ =>
    obtain rfl := Option.some.inj h
    rfl

/-- A fact about the log and each call, by the call's turns: see `Pool.call_history`. -/
theorem ServerRun.call_history {env : Env}
    {K : List (Server × Act Request Move) → Nat → Call → Prop}
    (frame : ∀ log q a i c, (∀ m, a ≠ .turn i m) → K log i c → K (log ++ [(q, a)]) i c)
    (new : ∀ log i c, c.isNew = true → (∀ e ∈ log, ∀ m, e.2 ≠ .turn i m) → K log i c)
    (turned : ∀ log q i c m t, ServerRun env log q → q.calls[i]? = some c →
      TurnCases env q.store (q.others i) c m t → K log i c →
        K (log ++ [(q, .turn i m)]) i t.call)
    {log : List (Server × Act Request Move)} {p : Server} (run : ServerRun env log p) :
    ∀ i c, p.calls[i]? = some c → K log i c := by
  have cases' : ∀ {log q i c m t}, ServerRun env log q → q.calls[i]? = some c →
      (server env).turn q.store (q.others i) c m = some t →
      TurnCases env q.store (q.others i) c m t :=
    fun run hc ht => turn_cases run.good.inv (run.good.ok _ _ hc) ht
  refine Pool.call_history frame (fun i c h => by simp [Server.init] at h)
    (fun d r c h log i idle => new log i c (accept_isNew h) idle) ?_ ?_ run
  · intro log q i c m t run hc ht n hn log' j idle
    cases cases' run hc ht with
    | statement _ _ _ spawned _ =>
      obtain ⟨id, rfl⟩ := spawned n hn
      exact new _ _ _ rfl idle
    | _ => exact nomatch hn
  · exact fun log q i c m t run hc ht => turned log q i c m t run hc (cases' run hc ht)

end Syrotp
