import Syrotp.Sdk.Python
import Syrotp.Server.Proofs.Reports

/-!
# A cancellation that is retried

The client repeats a cancellation whose answer it did not get, and takes the server for idempotent.
The server is not: of the calls that cancel a verification one commits, and only that one answers
with the verification. So a session whose cancellation took effect in an attempt without an answer
ends in an error, whatever the later attempts are answered.
-/

namespace Syrotp.Sdk

variable {env : Env}

/-! ## The loop -/

section Loop

variable {α : Type*} (transport : Nat → Sent) (onResponse : Response → Except SyrotpError α)

/-- The loop ends with what its last attempt came to; the attempts before it were retriable. -/
theorem retryLoop_spec (left attempt : Nat) :
    ∃ last, (retryLoop transport onResponse left attempt).2 = last + 1 ∧ attempt ≤ last ∧
      last ≤ attempt + left ∧
      (retryLoop transport onResponse left attempt).1 = tried onResponse (transport last) ∧
      ∀ k, attempt ≤ k → k < last →
        ∃ e, tried onResponse (transport k) = .error e ∧ isRetriable e = true := by
  induction left generalizing attempt with
  | zero =>
    refine ⟨attempt, rfl, Nat.le_refl _, Nat.le_refl _, rfl, ?_⟩
    intro k after before
    omega
  | succ left ih =>
    cases came : tried onResponse (transport attempt) with
    | ok value =>
      refine ⟨attempt, by simp [retryLoop, came], Nat.le_refl _, by omega,
        by simp [retryLoop, came], ?_⟩
      intro k after before
      omega
    | error e =>
      by_cases again : isRetriable e = true
      · obtain ⟨last, made, after, within, ends, earlier⟩ := ih (attempt + 1)
        refine ⟨last, by simp [retryLoop, came, again, made], by omega, by omega,
          by simp [retryLoop, came, again, ends], ?_⟩
        intro k from' before
        by_cases first : k = attempt
        · exact ⟨e, first ▸ came, again⟩
        · exact earlier k (by omega) before
      · refine ⟨attempt, by simp [retryLoop, came, again], Nat.le_refl _, by omega,
          by simp [retryLoop, came, again], ?_⟩
        intro k after before
        omega

end Loop

/-- `cancel_verification` makes two attempts at most and ends with what the last one came to. -/
theorem cancelVerification_spec {retries : Nat} {verificationId : Text} {transport : Nat → Sent}
    (made : 0 < (cancelVerification retries verificationId transport).2) :
    ∃ last, (cancelVerification retries verificationId transport).2 = last + 1 ∧ last ≤ 1 ∧
      (cancelVerification retries verificationId transport).1 =
        match tried onResponse (transport last) with
        | .error e => .error (.syrotp e)
        | .ok data => fromDict data := by
  obtain ⟨last, count, _, within, ends, _⟩ :=
    retryLoop_spec transport onResponse (min retries 1) 0
  simp only [cancelVerification, executeWithRetries] at made ⊢
  split at made
  · next valid =>
    rw [if_pos valid, ends]
    refine ⟨last, ?_, by omega, ?_⟩
    · cases tried onResponse (transport last) <;> exact count
    · cases tried onResponse (transport last) <;> rfl
  · exact absurd made (Nat.lt_irrefl 0)

/-! ## What the server answers -/

/-- The call at position `i` took the verification from `pending` to `cancelled`. -/
def Cancels (env : Env) (log : List (Server × Act Request Move)) (i : Nat) (id : Id) : Prop :=
  ∃ s m q, (s, Act.turn i m) ∈ log ∧ Pool.step (server env) s (.turn i m) = some q ∧
    (∃ v ∈ s.store.verifications, v.id = id ∧ v.status = .pending) ∧
    ∃ v ∈ q.store.verifications, v.id = id ∧ v.status = .cancelled

theorem Cancels.mono {log log' : List (Server × Act Request Move)} {i : Nat} {id : Id}
    (h : Cancels env log i id) (sub : ∀ e ∈ log, e ∈ log') : Cancels env log' i id := by
  obtain ⟨s, m, q, logged, h⟩ := h
  exact ⟨s, m, q, sub _ logged, h⟩

/-- From the step that cancels it on, a verification is not pending. -/
theorem not_pending_after {q t : Server} {log : List (Server × Act Request Move)} {id : Id}
    (good : q.Good env) (run : Run (Pool.step (server env)) q log t)
    (cancelled : ∃ v ∈ q.store.verifications, v.id = id ∧ v.status = .cancelled) :
    ¬∃ v ∈ t.store.verifications, v.id = id ∧ v.status = .pending := by
  rintro ⟨x, hx, same, pending⟩
  obtain ⟨v, hv, rfl, status⟩ := cancelled
  have terminal : IsTerminal q.store v.id := ⟨v, hv, rfl, by rw [status]; exact nofun⟩
  obtain ⟨y, hy, same', other⟩ := (Server.follows_run good run).terminal terminal
  obtain rfl := (Server.good_run good run).inv.verification_ext hx hy (same.trans same'.symm)
  exact other pending

/-- One call at most cancels a verification. -/
theorem Cancels.unique {log : List (Server × Act Request Move)} {p : Server}
    (run : ServerRun env log p) {i j : Nat} {id : Id} (h : Cancels env log i id)
    (h' : Cancels env log j id) : i = j := by
  obtain ⟨s, m, q, logged, hs, pending, cancelled⟩ := h
  obtain ⟨s', m', q', logged', hs', pending', cancelled'⟩ := h'
  by_contra other
  have differ : ((s, .turn i m) : Server × Act Request Move) ≠ (s', .turn j m') := by
    intro same
    exact other (Act.turn.inj (Prod.mk.inj same).2).1
  rcases run.apart logged logged' differ with ⟨v, between, hv, later⟩ | ⟨v, between, hv, later⟩
  · obtain rfl := Option.some.inj (hv.symm.trans hs)
    have good := (server_discipline env).step (run.logged logged).1 hs
    exact not_pending_after good later cancelled pending'
  · obtain rfl := Option.some.inj (hv.symm.trans hs')
    have good := (server_discipline env).step (run.logged logged').1 hs'
    exact not_pending_after good later cancelled' pending

/-- What the stage of a cancellation tells about the log. -/
def Told (env : Env) (log : List (Server × Act Request Move)) (i : Nat) (id : Id) :
    CancelPhase → Prop
  | .emit row _ => row.id = id
  | .reread | .tell _ | .done (.ok _) => Cancels env log i id
  | .done (.error e) => 400 ≤ e.statusCode
  | _ => True

theorem Told.mono {log log' : List (Server × Act Request Move)} {i : Nat} {id : Id}
    {phase : CancelPhase} (h : Told env log i id phase) (sub : ∀ e ∈ log, e ∈ log') :
    Told env log' i id phase := by
  cases phase with
  | reread | tell => exact Cancels.mono h sub
  | done result =>
    cases result with
    | ok v => exact Cancels.mono h sub
    | error e => exact h
  | _ => exact h

/-- One statement of a cancellation. -/
theorem cancelVerification_told {log : List (Server × Act Request Move)} {q : Server} {i : Nat}
    {appId id : Id} {w : World} {phase phase' : CancelPhase} {x : Option Write}
    {expiry : Option Id} (good : q.Good env) (hc : q.calls[i]? = some (.cancel appId id phase))
    (hr : Syrotp.cancelVerification (viewOf q.store (q.others i)) w appId id phase =
      some (phase', x, expiry)) (before : Told env log i id phase) :
    Told env (log ++ [(q, .turn i (.statement w))]) i id phase' := by
  have sub : ∀ e ∈ log, e ∈ log ++ [(q, Act.turn i (.statement w))] :=
    fun _ he => List.mem_append_left _ he
  cases cancelVerification_step hr with
  | missed => trivial
  | taken _ same => exact same
  | unknown => exact (by decide : 400 ≤ (notFound "verification").statusCode)
  | settled =>
    exact (by decide : 400 ≤ (conflict "not_pending" "verification is not pending").statusCode)
  | emitted => exact before
  | @committed row e write written =>
    have taken : q.step (server env) (.turn i (.statement w)) =
        some ⟨q.store.commit write, q.calls.set i (.cancel appId id .reread) ++ []⟩ := by
      simp only [Pool.step, hc, server, Call.turn, Call.statement, hr, Option.map_some]
      rfl
    have emitting : Emitting env q.store row .cancelled none e := good.ok i _ hc
    obtain ⟨stored, status⟩ := emitting.resolved written
    obtain ⟨v, hv, pending, resolves, _⟩ := emitting
    have named : row.id = id := before
    exact ⟨q, .statement w, _, by simp, taken, ⟨v, hv, resolves.id.symm.trans named, pending⟩,
      ⟨row, stored, named, status⟩⟩
  | selected => exact Cancels.mono before sub
  | @told selected result answer =>
    simp only [Read.tell, ReadAnswer.verification.injEq] at answer
    split at answer
    · subst answer
      exact (by decide : 400 ≤ (notFound "verification").statusCode)
    · subst answer
      exact Cancels.mono before sub

theorem cancel_of_crashed {c : Call} {appId id : Id} {phase : CancelPhase}
    (h : c.crashed = (Call.cancel appId id phase).crashed) :
    ∃ phase', c = .cancel appId id phase' := by
  cases c with
  | cancel appId' id' phase' =>
    obtain ⟨rfl, rfl, _⟩ := Call.cancel.inj h
    exact ⟨phase', rfl⟩
  | _ => exact nomatch h

/-- In every run: a cancellation that answers with the verification has cancelled it, and one that
answers with an error has an error status. -/
theorem told {log : List (Server × Act Request Move)} {p : Server} (run : ServerRun env log p)
    {i : Nat} {appId id : Id} {phase : CancelPhase}
    (hc : p.calls[i]? = some (.cancel appId id phase)) : Told env log i id phase := by
  refine run.call_history
    (K := fun log i c => ∀ phase, c = .cancel appId id phase → Told env log i id phase)
    ?_ ?_ ?_ i _ hc phase rfl
  · exact fun _ _ _ _ _ _ h phase hc => (h phase hc).mono fun _ he => List.mem_append_left _ he
  · rintro log i _ new _ phase rfl
    cases phase <;> simp [Call.isNew] at new
    trivial
  · intro log q i c m t run hc turn h phase after
    obtain ⟨phase', rfl⟩ : ∃ phase', c = .cancel appId id phase' :=
      cancel_of_crashed (turn.crashed.symm.trans (congrArg Call.crashed after))
    cases turn with
    | statement _ _ _ _ ran =>
      obtain ⟨⟨phase'', x, expiry⟩, hr, rfl⟩ := Option.map_eq_some_iff.mp ran
      obtain ⟨_, _, rfl⟩ := Call.cancel.inj after
      exact cancelVerification_told run.good hc hr (h _ rfl)
    | error | lost | crash =>
      obtain ⟨_, _, rfl⟩ := Call.cancel.inj after
      trivial

/-! ## What the client is given -/

/-- A response with an error status is raised. -/
theorem onResponse_error (res : Response) (h : 400 ≤ res.status) :
    ∃ e, onResponse res = .error e := by
  refine ⟨errorFromResponse res, if_neg ?_⟩
  omega

theorem Fault.raises (fault : Fault) : ∃ e, tried onResponse fault.sent = .error e := by
  cases fault with
  | timeout message => exact ⟨_, rfl⟩
  | network message => exact ⟨_, rfl⟩
  | replaced res range => exact onResponse_error res (by omega)

theorem Refusal.raises (requestId : Text) (refusal : Refusal) :
    ∃ e, tried onResponse (.response (refusal.response requestId)) = .error e := by
  apply onResponse_error
  cases refusal <;> simp [Refusal.response, errorResponse, Refusal.error, Syrotp.notFound,
    Syrotp.internal]

/-- An attempt that does not come to an error was executed by a call that cancelled. -/
theorem Attempt.cancels {log : List (Server × Act Request Move)} {p : Server}
    (run : ServerRun env log p) {a : Attempt} {requestId : Text} {data : Document}
    (h : tried onResponse (a.sent p.calls requestId) = .ok data) :
    ∃ i appId id v, a = .executed i none ∧
      p.calls[i]? = some (.cancel appId id (.done (.ok v))) ∧ Cancels env log i id := by
  have raised : ¬∃ e, tried onResponse (a.sent p.calls requestId) = .error e := by
    rintro ⟨e, he⟩
    rw [h] at he
    exact nomatch he
  cases a with
  | unreached fault => exact absurd fault.raises raised
  | refused refusal fault =>
    cases fault with
    | some fault => exact absurd fault.raises raised
    | none => exact absurd (refusal.raises requestId) raised
  | executed i fault =>
    cases fault with
    | some fault => exact absurd fault.raises raised
    | none =>
      simp only [Attempt.sent] at h raised
      split at h
      · next res replied =>
        obtain ⟨c, hc, replied⟩ := Option.bind_eq_some_iff.mp replied
        cases c with
        | cancel appId id phase =>
          cases phase with
          | done result =>
            cases result with
            | ok v => exact ⟨i, appId, id, v, rfl, hc, told run hc⟩
            | error e =>
              obtain rfl := Option.some.inj replied
              obtain ⟨e', he⟩ := onResponse_error (errorResponse requestId none e)
                (told run hc)
              exact nomatch he.symm.trans h
          | failed =>
            obtain rfl := Option.some.inj replied
            obtain ⟨e', he⟩ := onResponse_error (errorResponse requestId none internal)
              (show 400 ≤ 500 by decide)
            exact nomatch he.symm.trans h
          | _ => exact nomatch replied
        | _ => exact nomatch replied
      · exact nomatch h

/-! ## Sessions -/

/-- The attempts a session made were executed by calls of its own, one each. -/
structure CancelSession.Served (s : CancelSession) (p : Server) : Prop where
  call : ∀ k < (s.outcome p).2, ∀ i fault, s.attempts k = .executed i fault →
    ∃ phase, p.calls[i]? = some (.cancel s.appId s.id phase)
  own : ∀ k < (s.outcome p).2, ∀ l < (s.outcome p).2, ∀ i fault fault',
    s.attempts k = .executed i fault → s.attempts l = .executed i fault' → k = l

/-- The server's answer to the attempt reaches the client. -/
def Attempt.Answered (calls : List Call) : Attempt → Prop
  | .refused _ none => True
  | .executed i none => ∃ c, calls[i]? = some c ∧ c.inFlight = false
  | _ => False

/-- An attempt of the session cancelled the pending verification, and a later one is answered. -/
def CancelSession.Repeated (env : Env) (s : CancelSession) (log : List (Server × Act Request Move))
    (p : Server) : Prop :=
  ∃ k l, k < l ∧ l < (s.outcome p).2 ∧
    (∃ i fault, s.attempts k = .executed i fault ∧ Cancels env log i s.id) ∧
    (s.attempts l).Answered p.calls

/-- In every run of the server and for every session whose cancellation one of its attempts has
carried out, a later attempt being answered: the client raises. -/
theorem repeated_cancel_raises {log : List (Server × Act Request Move)} {p : Server}
    (run : ServerRun env log p) (s : CancelSession) (served : s.Served p)
    (repeated : s.Repeated env log p) : ∃ e, (s.outcome p).1 = .error (.syrotp e) := by
  obtain ⟨k, l, before, made, ⟨i, fault, executed, cancels⟩, _⟩ := repeated
  have some' : 0 < (s.outcome p).2 := by omega
  obtain ⟨last, count, _, ends⟩ := cancelVerification_spec some'
  have count : (s.outcome p).2 = last + 1 := count
  have ends : (s.outcome p).1 = _ := ends
  rw [ends]
  cases came : tried onResponse ((s.attempts last).sent p.calls (s.requestId last)) with
  | error e => exact ⟨e, rfl⟩
  | ok data =>
    -- the last attempt would have cancelled the verification once more
    obtain ⟨j, appId, id, v, executed', hc, cancels'⟩ := Attempt.cancels run came
    obtain ⟨phase, hc'⟩ := served.call last (by omega) j none executed'
    obtain ⟨_, rfl, _⟩ := Call.cancel.inj (Option.some.inj (hc.symm.trans hc'))
    obtain rfl := Cancels.unique run cancels cancels'
    have same := served.own k (by omega) last (by omega) i fault none executed executed'
    omega

namespace Script

open Syrotp.Script (app startedId started turns world result)

/-- The verification of `started` is cancelled (call 4) and cancelled again (call 5). -/
def cancelledTwice : List (Act Request Move) :=
  started ++ [.arrive (.cancelVerification app startedId)] ++ turns 4 6 (world 1040) ++
  [.arrive (.cancelVerification app startedId)] ++ turns 5 2 (world 1290)

theorem cancelledTwice_runs : (result cancelledTwice).isSome = true := by decide +kernel

/-- The connection breaks before the first response. -/
def session : CancelSession where
  retries := 2
  verificationId := text "vrf_01HXAMPLE0000000000000001"
  appId := app
  id := startedId
  attempts k := if k = 0 then .executed 4 (some (.network "connection reset"))
    else .executed 5 none
  requestId _ := text "req-1"

/-- Where it leaves the server. -/
def ended : Server := ((result cancelledTwice).get cancelledTwice_runs).2

/-- Call 4 has cancelled, call 5 has found a verification that is not pending. -/
theorem ended_calls :
    ended.calls[4]? = some (.cancel app startedId (.done (.ok ⟨startedId, .cancelled,
      text "+96399****567", none, none, none, text "login", none, 601030, 1030, 0⟩))) ∧
    ended.calls[5]? = some (.cancel app startedId
      (.done (.error (conflict "not_pending" "verification is not pending")))) := by
  decide +kernel

theorem session_outcome : session.outcome ended = (.error (.syrotp
    ⟨.base, "not_pending", "verification is not pending", 409, some (text "req-1")⟩), 2) := by
  decide +kernel

theorem session_served : session.Served ended where
  call := by
    intro k _ i fault executed
    simp only [session] at executed
    split at executed
    · obtain ⟨rfl, _⟩ := Attempt.executed.inj executed
      exact ⟨_, ended_calls.1⟩
    · obtain ⟨rfl, _⟩ := Attempt.executed.inj executed
      exact ⟨_, ended_calls.2⟩
  own := by
    intro k hk l hl i fault fault' executed executed'
    rw [session_outcome] at hk hl
    simp only [session] at executed executed'
    by_cases first : k = 0 <;> by_cases first' : l = 0
    · rw [first, first']
    · rw [if_pos first] at executed
      rw [if_neg first'] at executed'
      cases executed
      cases executed'
    · rw [if_neg first] at executed
      rw [if_pos first'] at executed'
      cases executed
      cases executed'
    · omega

theorem session_repeated :
    session.Repeated .ascii ((result cancelledTwice).get cancelledTwice_runs).1 ended := by
  have run := Syrotp.Script.run _ cancelledTwice_runs
  have cancels : Cancels .ascii _ 4 startedId := told run ended_calls.1
  refine ⟨0, 1, by decide, ?_, ⟨4, _, rfl, cancels⟩, _, ended_calls.2, rfl⟩
  rw [session_outcome]
  decide

end Script

/-- The first attempt cancels and its answer is lost; the retry is answered with a conflict, which
the client raises. -/
theorem cancel_conflicts_with_itself : ∃ log p s, ServerRun .ascii log p ∧
    CancelSession.Served s p ∧ CancelSession.Repeated .ascii s log p ∧
    (∃ v ∈ p.store.verifications, v.id = s.id ∧ v.status = .cancelled) ∧
    (s.outcome p).1 = .error (.syrotp
      ⟨.base, "not_pending", "verification is not pending", 409, some (text "req-1")⟩) :=
  ⟨_, Script.ended, Script.session, Syrotp.Script.run _ Script.cancelledTwice_runs,
    Script.session_served, Script.session_repeated, by decide +kernel,
    congrArg Prod.fst Script.session_outcome⟩

/-- The client of that session raises. -/
theorem repeated_cancel_raises_script : ∃ s p,
    (∃ e, (CancelSession.outcome s p).1 = .error (.syrotp e)) ∧ s.retries = 2 :=
  ⟨Script.session, Script.ended,
    repeated_cancel_raises (Syrotp.Script.run _ Script.cancelledTwice_runs) Script.session
      Script.session_served Script.session_repeated, rfl⟩

end Syrotp.Sdk
