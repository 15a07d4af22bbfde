import Syrotp.Misc.Run

/-!
# Simulation

A system is simulated by another when each of its steps can be followed by some steps of the other,
none or several, so that the states stay related. A whole run is then followed by a run, which
passes by a related state at every moment, in the same order: what holds of any two moments of the
one can be told from two moments of the other.
-/

namespace Syrotp

variable {σ τ α β : Type*}

/-- The second list passes by a related state for every state of the first, in order; it may stay
where it is, and it may pass by others between them. -/
inductive Shadowed (R : σ → τ → Prop) : List σ → List τ → Prop
  | first {s : σ} {t : τ} : R s t → Shadowed R [s] [t]
  | stay {xs : List σ} {ys : List τ} {s : σ} {t : τ} :
      Shadowed R xs (ys ++ [t]) → R s t → Shadowed R (xs ++ [s]) (ys ++ [t])
  | next {xs : List σ} {ys between : List τ} {s : σ} {t : τ} :
      Shadowed R xs ys → R s t → Shadowed R (xs ++ [s]) (ys ++ (between ++ [t]))

namespace Shadowed

variable {R : σ → τ → Prop} {xs : List σ} {ys : List τ}

/-- Every state has a related one. -/
theorem of_mem (h : Shadowed R xs ys) : ∀ x ∈ xs, ∃ y ∈ ys, R x y := by
  induction h with
  | first related =>
    intro x hx
    rw [List.mem_singleton.mp hx]
    exact ⟨_, List.mem_singleton_self _, related⟩
  | stay _ related ih =>
    intro x hx
    rcases List.mem_append.mp hx with old | new
    · exact ih x old
    · rw [List.mem_singleton.mp new]
      exact ⟨_, by simp, related⟩
  | next _ related ih =>
    intro x hx
    rcases List.mem_append.mp hx with old | new
    · obtain ⟨y, hy, old⟩ := ih x old
      exact ⟨y, List.mem_append_left _ hy, old⟩
    · rw [List.mem_singleton.mp new]
      exact ⟨_, by simp, related⟩

/-- What relates any two states of the second list, in order, tells what relates any two of the
first. -/
theorem pairwise {P : σ → σ → Prop} {Q : τ → τ → Prop} (h : Shadowed R xs ys)
    (refl : ∀ t, Q t t) (told : ∀ {s t s' t'}, R s t → R s' t' → Q t t' → P s s')
    (later : ys.Pairwise Q) : xs.Pairwise P := by
  have last : ∀ {xs ys s t}, Shadowed R xs ys → R s t → (∀ y ∈ ys, Q y t) → xs.Pairwise P →
      (xs ++ [s]).Pairwise P := by
    intro xs ys s t shadowed related before pairwise
    rw [List.pairwise_append]
    refine ⟨pairwise, List.pairwise_singleton P s, fun x hx y hy => ?_⟩
    obtain ⟨z, hz, old⟩ := shadowed.of_mem x hx
    rw [List.mem_singleton.mp hy]
    exact told old related (before z hz)
  induction h with
  | first => exact List.pairwise_singleton P _
  | @stay xs ys s t shadowed related ih =>
    refine last shadowed related (fun y hy => ?_) (ih later)
    rcases List.mem_append.mp hy with earlier | same
    · exact (List.pairwise_append.mp later).2.2 y earlier t (List.mem_singleton_self t)
    · rw [List.mem_singleton.mp same]
      exact refl t
  | @next xs ys between s t shadowed related ih =>
    obtain ⟨earlier, _, apart⟩ := List.pairwise_append.mp later
    exact last shadowed related (fun y hy => apart y hy t (by simp)) (ih earlier)

end Shadowed

/-- Every step of the one system from related states is followed by a run of the other, which passes
by nothing that is not seen from one end of the step. -/
def Simulates (step : σ → α → Option σ) (step' : τ → β → Option τ) (R Seen : σ → τ → Prop) : Prop :=
  ∀ s t a s', R s t → step s a = some s' →
    ∃ log' t', Run step' t log' t' ∧ R s' t' ∧ ∀ u ∈ moments log' t', Seen s u ∨ Seen s' u

theorem moments_start (s : σ) : moments ([] : List (σ × α)) s = [s] := rfl

theorem moments_next (log : List (σ × α)) (t u : σ) (a : α) :
    moments (log ++ [(t, a)]) u = moments log t ++ [u] := by simp [moments]

/-- What a run passes through after it has been continued. -/
theorem moments_append (log : List (σ × α)) {log' : List (σ × α)} {step : σ → α → Option σ}
    {t u : σ} (h : Run step t log' u) :
    moments (log ++ log') u = moments log t ∧ u = t ∧ log' = [] ∨
      ∃ between, moments (log ++ log') u = moments log t ++ (between ++ [u]) := by
  induction h with
  | start => exact .inl ⟨by rw [List.append_nil], rfl, rfl⟩
  | @next log' v u a run hs ih =>
    refine .inr ?_
    rw [← List.append_assoc, moments_next]
    rcases ih with ⟨same, _, _⟩ | ⟨between, more⟩
    · exact ⟨[], by rw [same, List.nil_append]⟩
    · exact ⟨between ++ [v], by rw [more]; simp⟩

/-- Every run is followed by a run that passes by a related state at each of its moments, and by
nothing that is not seen from one of them. -/
theorem Simulates.run {step : σ → α → Option σ} {step' : τ → β → Option τ} {R Seen : σ → τ → Prop}
    (simulates : Simulates step step' R Seen) {s s' : σ} {t : τ} {log : List (σ × α)}
    (related : R s t) (seen : Seen s t) (run : Run step s log s') :
    ∃ log' t', Run step' t log' t' ∧ R s' t' ∧
      Shadowed R (moments log s') (moments log' t') ∧
      ∀ u ∈ moments log' t', ∃ x ∈ moments log s', Seen x u := by
  induction run with
  | start =>
    refine ⟨[], t, .start, related, .first related, fun u hu => ?_⟩
    rw [moments_start, List.mem_singleton] at hu
    exact ⟨s, List.mem_singleton_self s, hu ▸ seen⟩
  | @next log u v a _ hs ih =>
    obtain ⟨log', t', run', now, shadowed, all⟩ := ih
    obtain ⟨more, t'', further, after, between⟩ := simulates _ _ _ _ now hs
    have first : ∀ x ∈ moments log' t', ∃ y ∈ moments (log ++ [(u, a)]) v, Seen y x := by
      intro x hx
      obtain ⟨y, hy, seen⟩ := all x hx
      exact ⟨y, by rw [moments_next]; exact List.mem_append_left _ hy, seen⟩
    have then' : ∀ x ∈ moments more t'', ∃ y ∈ moments (log ++ [(u, a)]) v, Seen y x := by
      intro x hx
      rcases between x hx with seen | seen
      · exact ⟨u, by simp [moments], seen⟩
      · exact ⟨v, by simp [moments], seen⟩
    refine ⟨log' ++ more, t'', run'.trans further, after, ?_, fun x hx => ?_⟩
    · rw [moments_next]
      rcases moments_append log' further with ⟨same, rfl, _⟩ | ⟨passed, longer⟩
      · rw [same]
        exact .stay shadowed after
      · rw [longer]
        exact .next shadowed after
    · rw [moments, List.map_append, List.append_assoc] at hx
      rcases List.mem_append.mp hx with early | late
      · exact first x (List.mem_append_left _ early)
      · exact then' x late

theorem Run.moments_head {step : σ → α → Option σ} {s t : σ} {log : List (σ × α)}
    (h : Run step s log t) : (moments log t)[0]? = some s := by
  induction h with
  | start => rfl
  | @next log t u a _ _ ih =>
    rw [moments_next, List.getElem?_append_left (by simp [moments])]
    exact ih

/-- The moments up to one of them come first. -/
theorem Run.moments_prefix {step : σ → α → Option σ} {s t : σ} {log : List (σ × α)}
    (h : Run step s log t) (earlier : List (σ × α)) :
    moments earlier s <+: moments (earlier ++ log) t := by
  induction h with
  | start => simp
  | @next log t u a _ _ ih =>
    rw [← List.append_assoc, moments_next]
    exact ih.trans (List.prefix_append _ _)

/-- What relates any two moments relates each to the last. -/
theorem pairwise_last {R : σ → σ → Prop} {log : List (σ × α)} {s t : σ} (refl : ∀ s, R s s)
    (pairwise : (moments log t).Pairwise R) (hs : s ∈ moments log t) : R s t := by
  rcases List.mem_append.mp hs with before | last
  · exact (List.pairwise_append.mp pairwise).2.2 s before t (List.mem_singleton_self t)
  · rw [List.mem_singleton.mp last]
    exact refl t

/-- A run splits at any of its moments. -/
theorem Run.through {step : σ → α → Option σ} {s t u : σ} {log : List (σ × α)}
    (h : Run step s log t) (hu : u ∈ moments log t) :
    ∃ log₁ log₂, log = log₁ ++ log₂ ∧ Run step s log₁ u ∧ Run step u log₂ t := by
  rcases List.mem_append.mp hu with before | last
  · obtain ⟨e, he, rfl⟩ := List.mem_map.mp before
    obtain ⟨log₁, v, log₂, hlog, earlier, hs, later⟩ := h.split he
    exact ⟨log₁, e :: log₂, hlog, earlier, (Run.single hs).trans later⟩
  · obtain rfl := List.mem_singleton.mp last
    exact ⟨log, [], (List.append_nil _).symm, h, .start⟩

end Syrotp
