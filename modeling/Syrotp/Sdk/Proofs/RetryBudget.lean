import Syrotp.Sdk.SharedClient
import Mathlib.Data.List.Perm.Basic

/-!
# The retry budget of a shared client

A cancellation puts back the setting that it read. If it read the setting of another cancellation
under way, it puts that one back, and where it is the last to end the client keeps it. The setting
is safe as long as a cancellation that read the constructor value outlasts the others.
-/

namespace Syrotp.Sdk

variable {c retries : Nat} {calls rest : List ClientCall} {p q : Pool Nat ClientCall}
  {log : List (Pool Nat ClientCall × Act ClientRequest ClientMove)}
  {a : Act ClientRequest ClientMove} {mode : Interleaving}

/-! ## What the calls are promised -/

def ClientCall.isCancelling : ClientCall → Bool
  | .cancel (.ended _) | .other _ _ => false
  | .cancel _ => true

/-- The setting is the constructor's whenever nothing is being cancelled, and the requests of the
other calls ran with it. -/
structure Undisturbed (c : Nat) (p : Pool Nat ClientCall) : Prop where
  setting : (∀ call ∈ p.calls, call.isCancelling = false) → p.store = c
  budgets : ∀ method budgets, .other method budgets ∈ p.calls → ∀ b ∈ budgets, b = c

/-- What a running cancellation will write back. -/
def ClientCall.original? : ClientCall → Option Nat
  | .cancel (.read original) | .cancel (.overridden original)
  | .cancel (.requested original _) => some original
  | _ => none

/-- The setting is the one this call wrote, or another wrote it since. -/
def ClientCall.overrides : ClientCall → Bool
  | .cancel (.overridden _) | .cancel (.requested _ _) => true
  | _ => false

/-- A request of another call is made only while no cancellation overrides the setting. A
cancellation that read the constructor value ends only when the running ones read it too, or one of
them overrides the setting. -/
structure Careful (c : Nat) (p : Pool Nat ClientCall) (a : Act ClientRequest ClientMove) :
    Prop where
  request : ∀ i method budgets, a = .turn i .run → p.calls[i]? = some (.other method budgets) →
    ∀ call ∈ p.calls, call.overrides = false
  restore : ∀ i outcome budget, a = .turn i (.finish outcome) →
    p.calls[i]? = some (.cancel (.requested c budget)) →
      (∀ call ∈ p.others i, ∀ original, call.original? = some original → original = c) ∨
        ∃ call ∈ p.others i, call.overrides = true ∧ call.original? = some c

/-! ## Turns -/

/-- What one turn of a call can be. -/
inductive ClientTurn (mode : Interleaving) (retries : Nat) : ClientCall → ClientMove →
    Turn Nat ClientCall → Prop
  | ran {stage r} : uninterrupted retries stage mode = some r →
      ClientTurn mode retries (.cancel stage) .run ⟨r.1, .cancel r.2, []⟩
  | restored {original budget outcome} :
      ClientTurn mode retries (.cancel (.requested original budget)) (.finish outcome)
        ⟨original, .cancel (.ended outcome), []⟩
  | other {method : Method} {budgets} : method.mayRequest budgets = true →
      ClientTurn mode retries (.other method budgets) .run
        ⟨retries, .other method (budgets ++ [retries]), []⟩

theorem client_turn {others : List ClientCall} {call : ClientCall} {move : ClientMove}
    {t : Turn Nat ClientCall} (h : (client mode).turn retries others call move = some t) :
    ClientTurn mode retries call move t := by
  simp only [client] at h
  split at h
  · obtain ⟨r, ran, rfl⟩ := Option.map_eq_some_iff.mp h
    exact .ran ran
  · obtain rfl := Option.some.inj h
    exact .restored
  · obtain ⟨may, h⟩ := Option.ite_none_right_eq_some.mp h
    obtain rfl := Option.some.inj h
    exact .other may
  · cases h

/-! ## Lines -/

/-- One step of a client whose calls are interleaved line by line. The calls are listed with the
one that takes the step first. -/
inductive LineStep (p : Pool Nat ClientCall) : Act ClientRequest ClientMove → Nat → ClientCall →
    List ClientCall → Prop
  | arrived {request call} : call.original? = none → call.overrides = false →
      (∀ method budgets, call = .other method budgets → budgets = []) →
      LineStep p (.arrive request) p.store call p.calls
  | read {i} : p.calls[i]? = some (.cancel .entered) →
      LineStep p (.turn i .run) p.store (.cancel (.read p.store)) (p.others i)
  | overridden {i original} : p.calls[i]? = some (.cancel (.read original)) →
      LineStep p (.turn i .run) (min original 1) (.cancel (.overridden original)) (p.others i)
  | requested {i original} : p.calls[i]? = some (.cancel (.overridden original)) →
      LineStep p (.turn i .run) p.store (.cancel (.requested original p.store)) (p.others i)
  | restored {i original budget outcome} :
      p.calls[i]? = some (.cancel (.requested original budget)) →
      LineStep p (.turn i (.finish outcome)) original (.cancel (.ended outcome)) (p.others i)
  | other {i method budgets} : p.calls[i]? = some (.other method budgets) →
      LineStep p (.turn i .run) p.store (.other method (budgets ++ [p.store])) (p.others i)

theorem line_step {i : Nat} {stage stage' : CancelStage} {after : Nat}
    (hi : p.calls[i]? = some (.cancel stage)) (h : line p.store stage = some (after, stage')) :
    LineStep p (.turn i .run) after (.cancel stage') (p.others i) := by
  cases stage with
  | entered =>
    cases h
    exact .read hi
  | read original =>
    cases h
    exact .overridden hi
  | overridden original =>
    cases h
    exact .requested hi
  | requested original budget => cases h
  | ended outcome => cases h

/-- The calls of a pool, with the acting one first. -/
theorem perm_others {i : Nat} {call : ClientCall} (hi : p.calls[i]? = some call) :
    p.calls.Perm (call :: p.others i) := by
  obtain ⟨bound, rfl⟩ := List.getElem?_eq_some_iff.mp hi
  exact (List.getElem_cons_eraseIdx_perm bound).symm

theorem step_line (h : p.step (client .threads) a = some q) :
    ∃ after call rest, LineStep p a after call rest ∧ q.store = after ∧
      q.calls.Perm (call :: rest) := by
  cases a with
  | arrive request =>
    obtain ⟨call, accepted, rfl⟩ := Pool.step_arrive h
    refine ⟨_, call, _, ?_, rfl, List.perm_append_singleton call p.calls⟩
    cases request with
    | cancelVerification verificationId =>
      obtain rfl := Option.some.inj accepted
      split
      · exact .arrived rfl rfl (by rintro _ _ ⟨⟩)
      · exact .arrived rfl rfl (by rintro _ _ ⟨⟩)
    | other method =>
      obtain rfl := Option.some.inj accepted
      exact .arrived rfl rfl fun _ _ same => (ClientCall.other.inj same).2.symm
  | turn i move =>
    obtain ⟨call, t, hi, turn, rfl⟩ := Pool.step_turn h
    have bound : i < p.calls.length := (List.getElem?_eq_some_iff.mp hi).1
    have listed : (p.calls.set i t.call).Perm (t.call :: p.others i) :=
      List.set_perm_cons_eraseIdx bound t.call
    cases client_turn turn with
    | ran ran => exact ⟨_, _, _, line_step hi ran, rfl, (List.append_nil _).symm ▸ listed⟩
    | restored => exact ⟨_, _, _, .restored hi, rfl, (List.append_nil _).symm ▸ listed⟩
    | other => exact ⟨_, _, _, .other hi, rfl, (List.append_nil _).symm ▸ listed⟩

/-! ## The invariant -/

/-- Without an overriding call the setting is the constructor's, and a call that will write back
another value runs together with an overriding one that will write back that. -/
structure Guarded (c retries : Nat) (calls : List ClientCall) : Prop where
  setting : (∀ call ∈ calls, call.overrides = false) → retries = c
  outlasted : ∀ call ∈ calls, ∀ original, call.original? = some original → original ≠ c →
    ∃ call ∈ calls, call.overrides = true ∧ call.original? = some c
  budgets : ∀ method budgets, .other method budgets ∈ calls → ∀ b ∈ budgets, b = c

theorem Guarded.perm (h : Guarded c retries calls) {calls' : List ClientCall}
    (same : calls.Perm calls') : Guarded c retries calls' where
  setting none := h.setting fun call hcall => none call (same.mem_iff.mp hcall)
  outlasted call hcall original will other := by
    obtain ⟨guard, hguard, facts⟩ :=
      h.outlasted call (same.mem_iff.mpr hcall) original will other
    exact ⟨guard, same.mem_iff.mp hguard, facts⟩
  budgets method budgets hcall := h.budgets method budgets (same.mem_iff.mpr hcall)

/-- A setting other than the constructor's has a guard. -/
theorem Guarded.guard (h : Guarded c retries calls) (differs : retries ≠ c) :
    ∃ call ∈ calls, call.overrides = true ∧ call.original? = some c := by
  by_contra unguarded
  refine differs (h.setting fun call hcall => ?_)
  by_contra overriding
  have overriding : call.overrides = true := by simpa using overriding
  have will : ∃ original, call.original? = some original := by
    match call, overriding with
    | .cancel (.overridden original), _ => exact ⟨original, rfl⟩
    | .cancel (.requested original _), _ => exact ⟨original, rfl⟩
  obtain ⟨original, will⟩ := will
  by_cases same : original = c
  · exact unguarded ⟨call, hcall, overriding, same ▸ will⟩
  · exact unguarded (h.outlasted call hcall original will same)

/-- A call that keeps what it will write back goes on; if it overrides the setting, the setting may
be any. -/
theorem Guarded.goes_on {call call' : ClientCall} {after : Nat}
    (h : Guarded c retries (call :: rest)) (will : call'.original? = call.original?)
    (overrides : call.overrides = true → call'.overrides = true)
    (writes : call'.overrides = true ∨ after = retries)
    (budgets : ∀ method budgets, call' = .other method budgets → ∀ b ∈ budgets, b = c) :
    Guarded c after (call' :: rest) where
  setting none := by
    obtain ⟨notNow, none⟩ := List.forall_mem_cons.mp none
    rcases writes with now | rfl
    · exact absurd now (by simp [notNow])
    · refine h.setting (List.forall_mem_cons.mpr ⟨?_, none⟩)
      by_contra before
      exact absurd (overrides (by simpa using before)) (by simp [notNow])
  outlasted x hx original hw other := by
    have before : ∃ x ∈ call :: rest, x.original? = some original := by
      rcases List.mem_cons.mp hx with rfl | hx
      · exact ⟨call, List.mem_cons_self, will ▸ hw⟩
      · exact ⟨x, List.mem_cons_of_mem _ hx, hw⟩
    obtain ⟨x, hx, hw⟩ := before
    obtain ⟨guard, hguard, overriding, reads⟩ := h.outlasted x hx original hw other
    rcases List.mem_cons.mp hguard with rfl | hguard
    · exact ⟨call', List.mem_cons_self, overrides overriding, will.trans reads⟩
    · exact ⟨guard, List.mem_cons_of_mem _ hguard, overriding, reads⟩
  budgets method budgets' hcall := by
    rcases List.mem_cons.mp hcall with same | hcall
    · exact budgets method budgets' same.symm
    · exact h.budgets method budgets' (List.mem_cons_of_mem _ hcall)

/-- A cancellation reads the setting. -/
theorem Guarded.reads {call : ClientCall} (h : Guarded c retries (call :: rest))
    (idle : call.overrides = false) (reads : call.original? = none) :
    Guarded c retries (.cancel (.read retries) :: rest) where
  setting none := h.setting (List.forall_mem_cons.mpr ⟨idle, (List.forall_mem_cons.mp none).2⟩)
  outlasted x hx original will other := by
    have guarded : ∃ call' ∈ call :: rest, call'.overrides = true ∧ call'.original? = some c := by
      rcases List.mem_cons.mp hx with rfl | hx
      · obtain rfl := Option.some.inj will
        exact h.guard other
      · exact h.outlasted x (List.mem_cons_of_mem _ hx) original will other
    obtain ⟨guard, hguard, overriding, will⟩ := guarded
    rcases List.mem_cons.mp hguard with rfl | hguard
    · exact absurd (reads.symm.trans will) nofun
    · exact ⟨guard, List.mem_cons_of_mem _ hguard, overriding, will⟩
  budgets method budgets hcall := by
    rcases List.mem_cons.mp hcall with same | hcall
    · cases same
    · exact h.budgets method budgets (List.mem_cons_of_mem _ hcall)

/-- A cancellation writes back what it read. -/
theorem Guarded.restores {original budget : Nat} {outcome : Outcome}
    (h : Guarded c retries (.cancel (.requested original budget) :: rest))
    (last : original = c →
      (∀ call ∈ rest, ∀ original, call.original? = some original → original = c) ∨
        ∃ call ∈ rest, call.overrides = true ∧ call.original? = some c) :
    Guarded c original (.cancel (.ended outcome) :: rest) := by
  have guarded : ∀ call ∈ rest, ∀ original, call.original? = some original → original ≠ c →
      ∃ call ∈ rest, call.overrides = true ∧ call.original? = some c := by
    intro call hcall original' will other
    by_cases same : original = c
    · rcases last same with all | guarded
      · exact absurd (all call hcall original' will) other
      · exact guarded
    · obtain ⟨guard, hguard, overriding, reads⟩ :=
        h.outlasted call (List.mem_cons_of_mem _ hcall) original' will other
      rcases List.mem_cons.mp hguard with rfl | hguard
      · exact absurd (Option.some.inj reads) same
      · exact ⟨guard, hguard, overriding, reads⟩
  constructor
  · intro none
    by_contra other
    obtain ⟨guard, hguard, overriding, reads⟩ :=
      h.outlasted _ List.mem_cons_self original rfl other
    rcases List.mem_cons.mp hguard with rfl | hguard
    · exact other (Option.some.inj reads)
    · exact absurd overriding (by simp [(List.forall_mem_cons.mp none).2 guard hguard])
  · intro call hcall original' will other
    rcases List.mem_cons.mp hcall with rfl | hcall
    · cases will
    · obtain ⟨guard, hguard, facts⟩ := guarded call hcall original' will other
      exact ⟨guard, List.mem_cons_of_mem _ hguard, facts⟩
  · intro method budgets hcall
    rcases List.mem_cons.mp hcall with same | hcall
    · cases same
    · exact h.budgets method budgets (List.mem_cons_of_mem _ hcall)

theorem Guarded.step (h : Guarded c p.store p.calls) (careful : Careful c p a)
    (hs : p.step (client .threads) a = some q) : Guarded c q.store q.calls := by
  obtain ⟨after, call, rest, step, stored, listed⟩ := step_line hs
  suffices first : Guarded c after (call :: rest) from stored ▸ first.perm listed.symm
  cases step with
  | arrived will idle fresh =>
    constructor
    · intro none
      exact h.setting (List.forall_mem_cons.mp none).2
    · intro x hx original hw other
      rcases List.mem_cons.mp hx with rfl | hx
      · exact absurd (will.symm.trans hw) nofun
      · obtain ⟨guard, hguard, facts⟩ := h.outlasted x hx original hw other
        exact ⟨guard, List.mem_cons_of_mem _ hguard, facts⟩
    · intro method budgets hcall
      rcases List.mem_cons.mp hcall with same | hcall
      · rw [fresh method budgets same.symm]
        exact List.forall_mem_nil _
      · exact h.budgets method budgets hcall
  | read hi => exact (h.perm (perm_others hi)).reads rfl rfl
  | overridden hi =>
    exact (h.perm (perm_others hi)).goes_on rfl (fun _ => rfl) (.inl rfl) (by rintro _ _ ⟨⟩)
  | requested hi =>
    exact (h.perm (perm_others hi)).goes_on rfl (fun _ => rfl) (.inl rfl) (by rintro _ _ ⟨⟩)
  | restored hi =>
    refine (h.perm (perm_others hi)).restores ?_
    rintro rfl
    exact careful.restore _ _ _ rfl hi
  | @other i method budgets hi =>
    have full : p.store = c := h.setting (careful.request i method budgets rfl hi)
    refine (h.perm (perm_others hi)).goes_on rfl nofun (.inr rfl) ?_
    rintro _ _ ⟨⟩ b hb
    rcases List.mem_append.mp hb with hb | hb
    · exact h.budgets method budgets (List.mem_of_getElem? hi) b hb
    · exact (List.mem_singleton.mp hb).trans full

/-! ## Tasks -/

section Tasks

variable {Cond : Pool Nat ClientCall → Act ClientRequest ClientMove → Prop}

/-- The next line of a cancellation is a step, and it is the same call that goes on. -/
theorem run_line {i : Nat} {stage stage' : CancelStage} {after : Nat}
    (hi : p.calls[i]? = some (.cancel stage)) (h : line p.store stage = some (after, stage')) :
    p.step (client .threads) (.turn i .run) = some ⟨after, p.calls.set i (.cancel stage')⟩ ∧
      (p.calls.set i (.cancel stage'))[i]? = some (.cancel stage') := by
  obtain ⟨bound, _⟩ := List.getElem?_eq_some_iff.mp hi
  refine ⟨?_, List.getElem?_set_self bound⟩
  simp only [Pool.step, hi, client, uninterrupted, h, Option.map_some, List.append_nil]

/-- What a task does up to its `await` are lines of a thread that no other call comes between. -/
theorem tasks_step
    (lines : ∀ p i stage, p.calls[i]? = some (.cancel stage) → Cond p (.turn i .run))
    (h : p.step (client .tasks) a = some q) (met : Cond p a) :
    ∃ log, Run (Pool.step (client .threads)) p log q ∧ ∀ e ∈ log, Cond e.1 e.2 := by
  have same : p.step (client .threads) a = some q →
      ∃ log, Run (Pool.step (client .threads)) p log q ∧ ∀ e ∈ log, Cond e.1 e.2 :=
    fun hs => ⟨_, .single hs, fun e he => List.mem_singleton.mp he ▸ met⟩
  cases a with
  | arrive request => exact same h
  | turn i move =>
    obtain ⟨call, t, hi, turn, rfl⟩ := Pool.step_turn h
    cases client_turn turn with
    | @ran stage r ran =>
      obtain ⟨first, h₁, ran⟩ := Option.bind_eq_some_iff.mp ran
      obtain ⟨second, h₂, h₃⟩ := Option.bind_eq_some_iff.mp ran
      obtain ⟨s₁, hi₁⟩ := run_line hi h₁
      obtain ⟨s₂, hi₂⟩ := run_line (p := ⟨_, _⟩) hi₁ h₂
      obtain ⟨s₃, -⟩ := run_line (p := ⟨_, _⟩) hi₂ h₃
      have last : p.calls.set i (.cancel r.2) ++ [] =
          ((p.calls.set i (.cancel first.2)).set i (.cancel second.2)).set i (.cancel r.2) := by
        rw [List.set_set, List.set_set, List.append_nil]
      rw [last]
      refine ⟨_, ((Run.single s₁).next s₂).next s₃, ?_⟩
      intro e he
      simp only [List.mem_append, List.mem_singleton] at he
      rcases he with (rfl | rfl) | rfl
      · exact lines _ _ _ hi
      · exact lines ⟨_, _⟩ _ _ hi₁
      · exact lines ⟨_, _⟩ _ _ hi₂
    | restored =>
      refine same ?_
      simp only [Pool.step, hi, client, Option.map_some]
    | other may =>
      refine same ?_
      simp only [Pool.step, hi, client, may, if_true, Option.map_some]

variable (Cond) in
/-- So threads interleave in every way that tasks do. -/
theorem threads_run
    (lines : ∀ p i stage, p.calls[i]? = some (.cancel stage) → Cond p (.turn i .run))
    (run : Run (Pool.step (client mode)) p log q) (met : ∀ e ∈ log, Cond e.1 e.2) :
    ∃ log', Run (Pool.step (client .threads)) p log' q ∧ ∀ e ∈ log', Cond e.1 e.2 := by
  cases mode with
  | threads => exact ⟨log, run, met⟩
  | tasks =>
    induction run with
    | start => exact ⟨[], .start, List.forall_mem_nil _⟩
    | @next log t u a _ hs ih =>
      obtain ⟨before, run, met₁⟩ := ih fun e he => met e (List.mem_append_left _ he)
      obtain ⟨after, steps, met₂⟩ := tasks_step lines hs (met (t, a) (by simp))
      exact ⟨before ++ after, run.trans steps, List.forall_mem_append.mpr ⟨met₁, met₂⟩⟩

end Tasks

/-! ## Runs -/

theorem careful_arrive {request : ClientRequest} : Careful c p (.arrive request) where
  request := by rintro _ _ _ ⟨⟩
  restore := by rintro _ _ _ ⟨⟩

theorem careful_line {i : Nat} {stage : CancelStage} (hi : p.calls[i]? = some (.cancel stage)) :
    Careful c p (.turn i .run) where
  request := by
    rintro _ method budgets ⟨⟩ hi'
    cases hi.symm.trans hi'
  restore := by rintro _ _ _ ⟨⟩

theorem guarded_constructed (c : Nat) :
    Guarded c (constructed c).store (constructed c).calls where
  setting _ := rfl
  outlasted := List.forall_mem_nil _
  budgets _ _ hcall := absurd hcall List.not_mem_nil

theorem overrides_of_not_cancelling {call : ClientCall} (h : call.isCancelling = false) :
    call.overrides = false := by
  cases call with
  | cancel stage => cases stage <;> first | rfl | cases h
  | other method budgets => rfl

/-- A run of careful steps disturbs no call. -/
theorem undisturbed_of_careful (run : Run (Pool.step (client mode)) (constructed c) log p)
    (careful : ∀ e ∈ log, Careful c e.1 e.2) : Undisturbed c p := by
  obtain ⟨log', run', met⟩ := threads_run (Careful c) (fun _ _ _ => careful_line) run careful
  have guarded : Guarded c p.store p.calls :=
    run'.invariant_of (fun p => Guarded c p.store p.calls) (Careful c) (guarded_constructed c)
      (fun _ _ _ h careful hs => h.step careful hs) met
  refine ⟨fun none => guarded.setting fun call hcall => ?_, guarded.budgets⟩
  exact overrides_of_not_cancelling (none call hcall)

/-- With one retry at most there is nothing to override. -/
structure Unchanged (c : Nat) (p : Pool Nat ClientCall) : Prop where
  setting : p.store = c
  originals : ∀ call ∈ p.calls, ∀ original, call.original? = some original → original = c
  budgets : ∀ method budgets, .other method budgets ∈ p.calls → ∀ b ∈ budgets, b = c

theorem Unchanged.step (few : c ≤ 1) (h : Unchanged c p)
    (hs : p.step (client .threads) a = some q) : Unchanged c q := by
  obtain ⟨after, call, rest, step, stored, listed⟩ := step_line hs
  have others : ∀ x ∈ rest, x ∈ p.calls := by
    intro x hx
    cases step with
    | arrived => exact hx
    | read | overridden | requested | restored | other => exact List.mem_of_mem_eraseIdx hx
  suffices first : after = c ∧ (∀ original, call.original? = some original → original = c) ∧
      ∀ method budgets, call = .other method budgets → ∀ b ∈ budgets, b = c by
    refine ⟨stored.trans first.1, fun x hx original will => ?_, fun method budgets hcall => ?_⟩
    · rcases List.mem_cons.mp (listed.mem_iff.mp hx) with rfl | hx
      · exact first.2.1 original will
      · exact h.originals x (others x hx) original will
    · rcases List.mem_cons.mp (listed.mem_iff.mp hcall) with same | hcall
      · exact first.2.2 method budgets same.symm
      · exact h.budgets method budgets (others _ hcall)
  have kept : ∀ {i : Nat} {x : ClientCall} {original : Nat}, p.calls[i]? = some x →
      x.original? = some original → original = c :=
    fun hi will => h.originals _ (List.mem_of_getElem? hi) _ will
  cases step with
  | arrived will idle fresh =>
    refine ⟨h.setting, fun _ hw => absurd (will.symm.trans hw) nofun, fun method budgets same => ?_⟩
    rw [fresh method budgets same]
    exact List.forall_mem_nil _
  | read hi =>
    refine ⟨h.setting, ?_, by rintro _ _ ⟨⟩⟩
    rintro _ ⟨⟩
    exact h.setting
  | overridden hi =>
    have same := kept hi rfl
    refine ⟨by omega, ?_, by rintro _ _ ⟨⟩⟩
    rintro _ ⟨⟩
    exact same
  | requested hi =>
    refine ⟨h.setting, ?_, by rintro _ _ ⟨⟩⟩
    rintro _ ⟨⟩
    exact kept hi rfl
  | restored hi => exact ⟨kept hi rfl, by rintro _ ⟨⟩, by rintro _ _ ⟨⟩⟩
  | @other i method budgets hi =>
    refine ⟨h.setting, by rintro _ ⟨⟩, ?_⟩
    rintro _ _ ⟨⟩ b hb
    rcases List.mem_append.mp hb with hb | hb
    · exact h.budgets method budgets (List.mem_of_getElem? hi) b hb
    · exact (List.mem_singleton.mp hb).trans h.setting

theorem undisturbed_of_le_one (few : c ≤ 1)
    (run : Run (Pool.step (client mode)) (constructed c) log p) : Undisturbed c p := by
  obtain ⟨log', run', -⟩ := threads_run (fun _ _ => True) (fun _ _ _ _ => trivial) run
    fun _ _ => trivial
  have unchanged : Unchanged c p :=
    run'.invariant ⟨rfl, List.forall_mem_nil _, fun _ _ hcall => absurd hcall List.not_mem_nil⟩
      fun _ _ _ h hs => h.step few hs
  exact ⟨fun _ => unchanged.setting, unchanged.budgets⟩

/-- A task reads the setting, overrides it and makes its request at once. -/
theorem uninterrupted_tasks {stage : CancelStage} {r : Nat × CancelStage}
    (h : uninterrupted retries stage .tasks = some r) :
    r = (min retries 1, .requested retries (min retries 1)) := by
  cases stage with
  | entered => exact (Option.some.inj h).symm
  | read original => cases h
  | overridden original => cases h
  | requested original budget => cases h
  | ended outcome => cases h

/-- So as a task a cancellation is retried once at most, as `cancelVerification` has it, whatever
the others do to the setting. -/
theorem cancel_budget {original budget : Nat}
    (run : Run (Pool.step (client .tasks)) (constructed c) log p)
    (requested : .cancel (.requested original budget) ∈ p.calls) : budget = min original 1 := by
  obtain ⟨i, hi⟩ := List.mem_iff_getElem?.mp requested
  refine run.invariant (I := fun p => ∀ i original budget,
    p.calls[i]? = some (.cancel (.requested original budget)) → budget = min original 1)
    (fun _ _ _ none => by cases none) (fun p a q ih hs i original budget hi => ?_)
    i original budget hi
  cases a with
  | arrive request =>
    obtain ⟨call, accepted, rfl⟩ := Pool.step_arrive hs
    rcases List.mem_append.mp (List.mem_of_getElem? hi) with old | new
    · obtain ⟨j, hj⟩ := List.mem_iff_getElem?.mp old
      exact ih j original budget hj
    · obtain rfl := List.mem_singleton.mp new
      cases request with
      | cancelVerification verificationId =>
        have cancelling := Option.some.inj accepted
        split at cancelling <;> cases cancelling
      | other method => cases accepted
  | turn j move =>
    obtain ⟨call, t, hj, turn, rfl⟩ := Pool.step_turn hs
    rcases Pool.turned_call hj hi with ⟨_, before⟩ | ⟨_, now⟩ | ⟨_, spawned⟩
    · exact ih i original budget before
    · cases client_turn turn with
      | ran ran =>
        obtain rfl := uninterrupted_tasks ran
        cases now
        rfl
      | restored => cases now
      | other => cases now
    · cases client_turn turn <;> cases spawned

/-! ## Overlapping cancellations -/

namespace BudgetScript

def cancel : Act ClientRequest ClientMove := .arrive (.cancelVerification (text "vrf_A"))

/-- A cancellation runs up to its request. -/
def up (i : Nat) : Interleaving → List (Act ClientRequest ClientMove)
  | .threads => [.turn i .run, .turn i .run, .turn i .run]
  | .tasks => [.turn i .run]

/-- The second of two cancellations starts before the first has ended, and ends after it. Then a
verification is read. -/
def overlapping (mode : Interleaving) : List (Act ClientRequest ClientMove) :=
  [cancel, cancel] ++ up 0 mode ++ up 1 mode ++
    [.turn 0 (.finish .returned), .turn 1 (.finish .returned), .arrive (.other .getVerification),
      .turn 2 .run]

theorem step_cancel {p : Pool Nat ClientCall} {mode : Interleaving} :
    p.step (client mode) cancel = some ⟨p.store, p.calls ++ [.cancel .entered]⟩ := by
  have valid : isVerificationId (text "vrf_A") = true := by decide
  simp only [cancel, Pool.step, client, valid, if_true, Option.map_some]

theorem overlapping_ends (mode : Interleaving) (c : Nat) :
    ∃ log, Run (Pool.step (client mode)) (constructed c) log
      ⟨min c 1, [.cancel (.ended .returned), .cancel (.ended .returned),
        .other .getVerification [min c 1]]⟩ := by
  suffices executed : (exec (Pool.step (client mode)) (constructed c) (overlapping mode)).map
      (·.2) = some ⟨min c 1, [.cancel (.ended .returned), .cancel (.ended .returned),
        .other .getVerification [min c 1]]⟩ from run_of_exec_map executed
  cases mode <;>
    simp only [overlapping, up, List.cons_append, List.nil_append, exec, step_cancel] <;>
    simp [Pool.step, client, uninterrupted, line, constructed, Method.mayRequest]

end BudgetScript

/-- With more than one retry two overlapping cancellations leave one. -/
theorem disturbed (mode : Interleaving) (many : 1 < c) :
    ∃ log p, Run (Pool.step (client mode)) (constructed c) log p ∧ ¬Undisturbed c p := by
  obtain ⟨log, run⟩ := BudgetScript.overlapping_ends mode c
  refine ⟨log, _, run, fun h => ?_⟩
  have restored : min c 1 = c := h.setting (by simp [ClientCall.isCancelling])
  omega

/-- Under asyncio, and with the default of two retries. -/
theorem overlapping_cancellations_disturb :
    ¬∀ (mode : Interleaving) (c : Nat) log p,
      Run (Pool.step (client mode)) (constructed c) log p → Undisturbed c p := by
  intro all
  obtain ⟨log, p, run, not⟩ := disturbed .tasks (c := 2) (by decide)
  exact not (all .tasks 2 log p run)

/-- The calls of every run are left alone if and only if the client was constructed with at most
one retry; and with more, in each run whose steps are careful. -/
theorem undisturbed_iff (mode : Interleaving) (c : Nat) :
    ((∀ log p, Run (Pool.step (client mode)) (constructed c) log p → Undisturbed c p) ↔ c ≤ 1) ∧
      ∀ log p, Run (Pool.step (client mode)) (constructed c) log p →
        (∀ e ∈ log, Careful c e.1 e.2) → Undisturbed c p := by
  refine ⟨⟨fun all => ?_, fun few _ _ => undisturbed_of_le_one few⟩,
    fun _ _ => undisturbed_of_careful⟩
  by_contra many
  obtain ⟨log, p, run, not⟩ := disturbed mode (Nat.lt_of_not_le many)
  exact not (all log p run)

/-- A cancelled cancellation, and a read after it. -/
theorem undisturbed_script :
    Undisturbed 2 ⟨2, [.cancel (.ended .cancelled), .other .getVerification [2]]⟩ := by
  refine (undisturbed_iff .tasks 2).2 _ _ ((((Run.single BudgetScript.step_cancel).next
    (a := .turn 0 .run) rfl).next (a := .turn 0 (.finish .cancelled)) rfl).next
    (a := .arrive (.other .getVerification)) rfl |>.next (a := .turn 1 .run) rfl) ?_
  simp only [List.forall_mem_append, List.forall_mem_singleton]
  refine ⟨⟨⟨⟨careful_arrive, careful_line rfl⟩, ?_, ?_⟩, careful_arrive⟩, ?_, ?_⟩
  · rintro _ _ _ ⟨⟩
  · rintro _ _ _ ⟨⟩ _
    exact .inl (List.forall_mem_nil _)
  · rintro _ _ _ ⟨⟩ _
    decide
  · rintro _ _ _ ⟨⟩

end Syrotp.Sdk
