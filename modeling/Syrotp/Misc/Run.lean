import Mathlib.Logic.Relation

/-!
# Runs of a labelled transition system

A system is a partial step function `step : σ → α → Option σ`: `none` where the action is not
enabled. A run keeps the log of the states it passed through together with the action taken
there, so that a statement may speak about an earlier moment of the run as well as about the
state it ended in.
-/

namespace Syrotp

variable {σ α : Type*}

/-- `Run step s log t`: the steps recorded in `log` lead from `s` to `t`. -/
inductive Run (step : σ → α → Option σ) (s : σ) : List (σ × α) → σ → Prop
  | start : Run step s [] s
  | next {log : List (σ × α)} {t u : σ} {a : α} :
      Run step s log t → step t a = some u → Run step s (log ++ [(t, a)]) u

/-- Executes a list of actions, keeping the log; `none` as soon as one is not enabled. -/
def exec (step : σ → α → Option σ) (s : σ) : List α → Option (List (σ × α) × σ)
  | [] => some ([], s)
  | a :: as =>
    match step s a with
    | none => none
    | some t => (exec step t as).map fun r => ((s, a) :: r.1, r.2)

/-- The states that a run passes through. -/
def moments (log : List (σ × α)) (t : σ) : List σ := log.map (·.1) ++ [t]

namespace Run

variable {step : σ → α → Option σ} {s t u : σ} {a : α} {log log' : List (σ × α)}

theorem single (h : step s a = some t) : Run step s [(s, a)] t := Run.start.next h

theorem trans (h : Run step s log t) (h' : Run step t log' u) : Run step s (log ++ log') u := by
  induction h' with
  | start => simpa using h
  | next _ hs ih => simpa using ih.next hs

/-- An invariant kept by every step holds wherever a run arrives. -/
theorem invariant {I : σ → Prop} (h : Run step s log t) (init : I s)
    (preserved : ∀ t a u, I t → step t a = some u → I u) : I t := by
  induction h with
  | start => exact init
  | next _ hs ih => exact preserved _ _ _ ih hs

/-- The same for an invariant that only the steps meeting `Cond` keep. -/
theorem invariant_of (Inv : σ → Prop) (Cond : σ → α → Prop) (h : Run step s log t)
    (init : Inv s) (preserved : ∀ t a u, Inv t → Cond t a → step t a = some u → Inv u)
    (met : ∀ e ∈ log, Cond e.1 e.2) : Inv t := by
  induction h with
  | start => exact init
  | @next log t u a _ hs ih =>
    have before : Inv t := ih fun e he => met e (List.mem_append_left _ he)
    exact preserved t a u before (met (t, a) (by simp)) hs

/-- A run splits at any step of its log. -/
theorem split_at (h : Run step s log u) {e : σ × α} {log₁ log₂ : List (σ × α)}
    (hlog : log = log₁ ++ e :: log₂) :
    ∃ v, Run step s log₁ e.1 ∧ step e.1 e.2 = some v ∧ Run step v log₂ u := by
  induction h generalizing log₂ with
  | start => simp at hlog
  | @next log t u a run hs ih =>
    rcases List.eq_nil_or_concat log₂ with rfl | ⟨rest, x, rfl⟩
    · obtain ⟨rfl, same⟩ := List.append_inj' hlog rfl
      obtain rfl := List.singleton_inj.mp same
      exact ⟨u, run, hs, .start⟩
    · rw [List.concat_eq_append, ← List.cons_append, ← List.append_assoc] at hlog
      obtain ⟨rfl, same⟩ := List.append_inj' hlog rfl
      obtain rfl := List.singleton_inj.mp same
      obtain ⟨v, h₁, hv, h₂⟩ := ih rfl
      exact ⟨v, h₁, hv, by simpa using h₂.next hs⟩

/-- A logged step was taken: the run splits there. -/
theorem split (h : Run step s log u) {e : σ × α} (he : e ∈ log) :
    ∃ log₁ v log₂, log = log₁ ++ e :: log₂ ∧ Run step s log₁ e.1 ∧
      step e.1 e.2 = some v ∧ Run step v log₂ u := by
  obtain ⟨log₁, log₂, hlog⟩ := List.append_of_mem he
  obtain ⟨v, h⟩ := h.split_at hlog
  exact ⟨log₁, v, log₂, hlog, h⟩

/-- Of two logged states one leads to the other. -/
theorem ordered (h : Run step s log u) {e e' : σ × α} (he : e ∈ log) (he' : e' ∈ log) :
    (∃ log', Run step e.1 log' e'.1) ∨ ∃ log', Run step e'.1 log' e.1 := by
  induction h with
  | start => simp at he
  | @next log t u a run hs ih =>
    have reaches : ∀ e ∈ log, ∃ log', Run step e.1 log' t := by
      intro e he
      obtain ⟨_, _, _, _, _, hv, later⟩ := run.split he
      exact ⟨_, (single hv).trans later⟩
    rcases List.mem_append.mp he with he | he <;> rcases List.mem_append.mp he' with he' | he'
    · exact ih he he'
    · exact .inl (List.mem_singleton.mp he' ▸ reaches e he)
    · exact .inr (List.mem_singleton.mp he ▸ reaches e' he')
    · exact .inl (List.mem_singleton.mp he ▸ List.mem_singleton.mp he' ▸ ⟨[], .start⟩)

/-- Of two different steps of a log, one leads to the state in which the other is taken. -/
theorem apart (h : Run step s log u) {e e' : σ × α} (he : e ∈ log) (he' : e' ∈ log)
    (ne : e ≠ e') : (∃ v log', step e.1 e.2 = some v ∧ Run step v log' e'.1) ∨
      ∃ v log', step e'.1 e'.2 = some v ∧ Run step v log' e.1 := by
  obtain ⟨log₁, v, log₂, rfl, before, hs, after⟩ := h.split he
  rcases List.mem_append.mp he' with earlier | later
  · obtain ⟨_, v', log', _, _, hs', between⟩ := before.split earlier
    exact .inr ⟨v', log', hs', between⟩
  · rcases List.mem_cons.mp later with same | later
    · exact absurd same.symm ne
    · obtain ⟨log', _, _, _, between, _, _⟩ := after.split later
      exact .inl ⟨v, log', hs, between⟩

/-- What every step relates, a reflexive and transitive relation carries along the run. -/
theorem rel {R : σ → σ → Prop} (refl : ∀ s, R s s) (trans : ∀ s t u, R s t → R t u → R s u)
    (related : ∀ t a u, step t a = some u → R t u) (h : Run step s log t) : R s t := by
  induction h with
  | start => exact refl s
  | next _ hs ih => exact trans _ _ _ ih (related _ _ _ hs)

/-- The same for a relation that just the steps of this run relate. -/
theorem rel_of {R : σ → σ → Prop} (refl : ∀ s, R s s) (trans : ∀ s t u, R s t → R t u → R s u)
    (h : Run step s log t) (related : ∀ e ∈ log, ∀ v, step e.1 e.2 = some v → R e.1 v) :
    R s t := by
  induction h with
  | start => exact refl s
  | @next log t u a _ hs ih =>
    have earlier : R s t := ih fun e he => related e (List.mem_append_left _ he)
    exact trans s t u earlier (related (t, a) (by simp) u hs)

/-- A run up to any of its moments. -/
theorem moment (h : Run step s log t) (hu : u ∈ moments log t) :
    ∃ log₁ log₂, log = log₁ ++ log₂ ∧ Run step s log₁ u := by
  rcases List.mem_append.mp hu with before | last
  · obtain ⟨e, he, rfl⟩ := List.mem_map.mp before
    obtain ⟨log₁, _, log₂, hlog, earlier, _⟩ := h.split he
    exact ⟨log₁, e :: log₂, hlog, earlier⟩
  · obtain rfl := List.mem_singleton.mp last
    exact ⟨log, [], (List.append_nil _).symm, h⟩

/-- Any two moments of a run are related if and only if the two sides of each step are. -/
theorem pairwise_moments {R : σ → σ → Prop} (refl : ∀ s, R s s)
    (trans : ∀ s t u, R s t → R t u → R s u) (h : Run step s log t) :
    (moments log t).Pairwise R ↔ ∀ e ∈ log, ∀ v, step e.1 e.2 = some v → R e.1 v := by
  induction h with
  | start => simp [moments]
  | @next log t u a run hs ih =>
    have split : moments (log ++ [(t, a)]) u = moments log t ++ [u] := by simp [moments]
    have last : (∀ e ∈ log ++ [(t, a)], ∀ v, step e.1 e.2 = some v → R e.1 v) ↔
        (∀ e ∈ log, ∀ v, step e.1 e.2 = some v → R e.1 v) ∧ R t u := by
      simp only [List.mem_append, List.mem_singleton, or_imp, forall_and, forall_eq, hs,
        Option.some.injEq, forall_eq']
    rw [split, last, List.pairwise_append, ih]
    constructor
    · rintro ⟨steps, -, ends⟩
      exact ⟨steps, ends t (by simp [moments]) u (List.mem_singleton_self u)⟩
    · rintro ⟨steps, now⟩
      refine ⟨steps, List.pairwise_singleton R u, fun v hv x hx => ?_⟩
      rw [List.mem_singleton.mp hx]
      rcases List.mem_append.mp hv with before | here
      · obtain ⟨e, he, rfl⟩ := List.mem_map.mp before
        obtain ⟨_, w, log₂, rfl, _, hw, later⟩ := run.split he
        have reaches : R w t := later.rel_of refl trans fun e' he' =>
          steps e' (List.mem_append_right _ (List.mem_cons_of_mem _ he'))
        exact trans _ _ _ (steps e he w hw) (trans _ _ _ reaches now)
      · rw [List.mem_singleton.mp here]
        exact now

end Run

/-- What holds of each entry of a log and the later ones holds pairwise. -/
theorem pairwise_of_splits {β : Type*} {R : β → β → Prop} {l : List β}
    (h : ∀ l₁ e l₂, l = l₁ ++ e :: l₂ → ∀ e' ∈ l₂, R e e') : l.Pairwise R := by
  induction l with
  | nil => exact .nil
  | cons e rest ih =>
    refine List.pairwise_cons.mpr ⟨h [] e rest rfl, ih fun l₁ e' l₂ split => ?_⟩
    exact h (e :: l₁) e' l₂ (by rw [split, List.cons_append])

/-- And the other way round. -/
theorem pairwise_split {β : Type*} {R : β → β → Prop} {l₁ l₂ : List β} {e e' : β}
    (h : (l₁ ++ e :: l₂).Pairwise R) (later : e' ∈ l₂) : R e e' :=
  (List.pairwise_cons.mp (List.pairwise_append.mp h).2.1).1 e' later

/-- Executing a list of actions is a run, and its log holds just those actions. -/
theorem run_of_exec {step : σ → α → Option σ} {acts : List α} {s t : σ} {log : List (σ × α)}
    (h : exec step s acts = some (log, t)) : Run step s log t := by
  induction acts generalizing s log with
  | nil =>
    simp only [exec, Option.some.injEq, Prod.mk.injEq] at h
    obtain ⟨rfl, rfl⟩ := h
    exact .start
  | cons a as ih =>
    cases hs : step s a with
    | none => simp [exec, hs] at h
    | some v =>
      simp only [exec, hs, Option.map_eq_some_iff] at h
      obtain ⟨⟨log', t'⟩, hr, heq⟩ := h
      obtain ⟨rfl, rfl⟩ := Prod.mk.inj heq
      exact (Run.single hs).trans (ih hr)

/-- The same where only the state that is reached is of interest. -/
theorem run_of_exec_map {step : σ → α → Option σ} {acts : List α} {s t : σ}
    (h : (exec step s acts).map (·.2) = some t) : ∃ log, Run step s log t := by
  obtain ⟨⟨log, _⟩, executed, rfl⟩ := Option.map_eq_some_iff.mp h
  exact ⟨log, run_of_exec executed⟩

/-- And where something decidable of its log and its end is: one evaluation runs the actions and
decides it. -/
theorem run_of_exec_any {step : σ → α → Option σ} {acts : List α} {s : σ}
    {P : List (σ × α) → σ → Prop} [∀ log t, Decidable (P log t)]
    (h : (exec step s acts).any (fun r => decide (P r.1 r.2)) = true) :
    ∃ log t, Run step s log t ∧ P log t := by
  obtain ⟨⟨log, t⟩, executed, holds⟩ := (Option.any_eq_true _ _).mp h
  exact ⟨log, t, run_of_exec executed, of_decide_eq_true holds⟩

/-- An abstraction that follows every step follows every execution. The invariant is what the
steps need to be followed. -/
theorem exec_follows {τ : Type*} {step : σ → α → Option σ} {step' : τ → α → Option τ}
    {abs : σ → τ} {Inv : σ → Prop} {acts : List α}
    (followed : ∀ s, Inv s → ∀ a ∈ acts, (step s a).map abs = step' (abs s) a)
    (preserved : ∀ s, Inv s → ∀ a ∈ acts, ∀ t, step s a = some t → Inv t) {s : σ} (init : Inv s) :
    (exec step s acts).map (fun r => abs r.2) = (exec step' (abs s) acts).map (·.2) ∧
      ∀ r, exec step s acts = some r → Inv r.2 := by
  induction acts generalizing s with
  | nil => exact ⟨rfl, fun r h => Option.some.inj h ▸ init⟩
  | cons a as ih =>
    have here := followed s init a List.mem_cons_self
    cases hs : step s a with
    | none =>
      rw [hs] at here
      simp only [exec, hs, ← here, Option.map_none, reduceCtorEq, false_implies, implies_true,
        and_self]
    | some t =>
      rw [hs] at here
      have later := ih (fun s hs a ha => followed s hs a (List.mem_cons_of_mem _ ha))
        (fun s hs a ha => preserved s hs a (List.mem_cons_of_mem _ ha))
        (preserved s init a List.mem_cons_self t hs)
      simp only [exec, hs, ← here, Option.map_some, Option.map_map]
      refine ⟨later.1, ?_⟩
      intro r h
      obtain ⟨r', hr', rfl⟩ := Option.map_eq_some_iff.mp h
      exact later.2 r' hr'

end Syrotp
