import Syrotp.Misc.Run

/-!
# Components that report

A step of such a component leaves a new state and the reports it has made on the way. `SettlesOnce`
says of a run that a status that is terminal is the last one, that it is announced at most once,
and that what is announced is the status in the end. A component each of whose steps reports
faithfully settles once just when no step leaves a terminal status.
-/

namespace Syrotp

variable {σ α ρ κ : Type*}

/-- A component and all that it has reported. -/
structure Reporting (σ ρ : Type*) where
  state : σ
  reports : List ρ
  deriving DecidableEq, Repr

def reporting (step : σ → α → Option (σ × List ρ)) (p : Reporting σ ρ) (a : α) :
    Option (Reporting σ ρ) :=
  (step p.state a).map fun r => ⟨r.1, p.reports ++ r.2⟩

/-- What is looked at: the status of a component, which of them are terminal, the status that a
report shows, and the status that it announces the change to. -/
structure Lens (σ ρ κ : Type*) where
  status : σ → κ
  terminal : κ → Prop
  shows : ρ → Option κ
  announces : ρ → Option κ

namespace Lens

variable {L : Lens σ ρ κ} {step : σ → α → Option (σ × List ρ)}
  {log : List (Reporting σ ρ × α)} {p q : Reporting σ ρ}

/-- A run that settles once. -/
structure SettlesOnce (L : Lens σ ρ κ) (log : List (Reporting σ ρ × α)) (q : Reporting σ ρ) :
    Prop where
  stays : (moments log q).Pairwise fun s t =>
    L.terminal (L.status s.state) → L.status t.state = L.status s.state
  shown : q.reports.Pairwise fun r r' => ∀ k k', L.shows r = some k → L.terminal k →
    L.shows r' = some k' → k' = k
  once : (q.reports.filterMap L.announces).length ≤ 1
  announced : ∀ r ∈ q.reports, ∀ k, L.announces r = some k → L.status q.state = k

/-- The reports of a step show the status it leads to, and announce it at most once and only if
the step comes from a status that is not terminal. -/
structure Faithful (L : Lens σ ρ κ) (s t : σ) (new : List ρ) : Prop where
  shown : ∀ r ∈ new, ∀ k, L.shows r = some k → k = L.status t
  announced : ∀ r ∈ new, ∀ k, L.announces r = some k →
    k = L.status t ∧ L.terminal k ∧ ¬L.terminal (L.status s)
  once : (new.filterMap L.announces).length ≤ 1

/-- A step that reports nothing is faithful. -/
theorem Faithful.silent {s t : σ} : L.Faithful s t [] := by
  constructor <;> simp

/-- Of the state before a step only the status counts. -/
theorem Faithful.of_status {s s' t : σ} {new : List ρ} (h : L.Faithful s' t new)
    (same : L.status s' = L.status s) : L.Faithful s t new where
  shown := h.shown
  announced := same ▸ h.announced
  once := h.once

/-- What has been reported so far fits the status. -/
structure Fits (L : Lens σ ρ κ) (p : Reporting σ ρ) : Prop where
  last : ∀ r ∈ p.reports, ∀ k, L.shows r = some k → L.terminal k → L.status p.state = k
  shown : p.reports.Pairwise fun r r' => ∀ k k', L.shows r = some k → L.terminal k →
    L.shows r' = some k' → k' = k
  once : (p.reports.filterMap L.announces).length ≤ 1
  announced : ∀ r ∈ p.reports, ∀ k, L.announces r = some k →
    L.status p.state = k ∧ L.terminal k

theorem Fits.extend {t : σ} {new : List ρ} (h : L.Fits p) (faithful : L.Faithful p.state t new)
    (stays : L.terminal (L.status p.state) → L.status t = L.status p.state) :
    L.Fits ⟨t, p.reports ++ new⟩ where
  last := by
    intro r hr k shows terminal
    rcases List.mem_append.mp hr with old | isNew
    · have same := h.last r old k shows terminal
      exact (stays (same ▸ terminal)).trans same
    · exact (faithful.shown r isNew k shows).symm
  shown := by
    rw [List.pairwise_append]
    refine ⟨h.shown, List.pairwise_iff_forall_sublist.mpr ?_, ?_⟩
    · intro r r' pair k k' shows _ shows'
      have here := faithful.shown r (pair.subset List.mem_cons_self) k shows
      have there := faithful.shown r' (pair.subset (by simp)) k' shows'
      exact there.trans here.symm
    · intro r hr r' hr' k k' shows terminal shows'
      have same := h.last r hr k shows terminal
      exact (faithful.shown r' hr' k' shows').trans ((stays (same ▸ terminal)).trans same)
  once := by
    rw [List.filterMap_append, List.length_append]
    cases already : p.reports.filterMap L.announces with
    | nil =>
      rw [List.length_nil, Nat.zero_add]
      exact faithful.once
    | cons k rest =>
      -- the status is terminal already, so the step announces nothing
      have announced : k ∈ p.reports.filterMap L.announces := already ▸ List.mem_cons_self
      obtain ⟨r, hr, named⟩ := List.mem_filterMap.mp announced
      obtain ⟨same, terminal⟩ := h.announced r hr k named
      have nothing : new.filterMap L.announces = [] := by
        rw [List.filterMap_eq_nil_iff]
        intro r' hr'
        cases again : L.announces r' with
        | none => rfl
        | some k' => exact absurd (same ▸ terminal) (faithful.announced r' hr' k' again).2.2
      rw [nothing, List.length_nil, Nat.add_zero, ← already]
      exact h.once
  announced := by
    intro r hr k announces
    rcases List.mem_append.mp hr with old | isNew
    · obtain ⟨same, terminal⟩ := h.announced r old k announces
      exact ⟨(stays (same ▸ terminal)).trans same, terminal⟩
    · obtain ⟨same, terminal, _⟩ := faithful.announced r isNew k announces
      exact ⟨same.symm, terminal⟩

/-- A run of faithful steps settles once if and only if no step leaves a terminal status. -/
theorem settlesOnce_iff {s₀ : σ} (run : Run (reporting step) ⟨s₀, []⟩ log q)
    (faithful : ∀ e ∈ log, ∀ t new, step e.1.state e.2 = some (t, new) →
      L.Faithful e.1.state t new) :
    L.SettlesOnce log q ↔ ∀ e ∈ log, ∀ t new, step e.1.state e.2 = some (t, new) →
      L.terminal (L.status e.1.state) → L.status t = L.status e.1.state := by
  have stays_iff := run.pairwise_moments
    (R := fun s t => L.terminal (L.status s.state) → L.status t.state = L.status s.state)
    (fun _ _ => rfl)
    (fun s t u first second terminal => by
      have same := first terminal
      exact (second (same ▸ terminal)).trans same)
  constructor
  · intro settles e he t new hs
    exact stays_iff.mp settles.stays e he ⟨t, e.1.reports ++ new⟩ (by rw [reporting, hs]; rfl)
  · intro never
    have fits : L.Fits q := by
      have start : L.Fits (⟨s₀, []⟩ : Reporting σ ρ) := by constructor <;> simp
      clear stays_iff
      induction run with
      | start => exact start
      | @next log p q a _ hs ih =>
        obtain ⟨⟨t, new⟩, taken, rfl⟩ := Option.map_eq_some_iff.mp hs
        have before : L.Fits p := ih (fun e he => faithful e (List.mem_append_left _ he))
          fun e he => never e (List.mem_append_left _ he)
        have here : (p, a) ∈ log ++ [(p, a)] := by simp
        exact before.extend (faithful _ here t new taken) (never _ here t new taken)
    refine ⟨stays_iff.mpr fun e he v hv => ?_, fits.shown, fits.once,
      fun r hr k announces => (fits.announced r hr k announces).1⟩
    obtain ⟨⟨t, new⟩, taken, rfl⟩ := Option.map_eq_some_iff.mp hv
    exact never e he t new taken

end Lens

end Syrotp
