import Syrotp.Misc.Run
import Mathlib.Data.List.Basic

/-!
# Calls that take turns on a shared store

A pool is a store and the calls in flight on it. Requests arrive at any time and become calls;
any call may take the next turn, which sees the store and the other calls (for the locks they
hold) and leaves a new store, its own next stage, and calls it started in the background. Calls
are never removed, so a call keeps its position and what it answered can be read later.

`Discipline` is the proof rule of this setting. Each call owns tokens, no token has two owners,
and a turn may only disturb what the acting call owns. Then an invariant of the store and an
assertion about each call hold in every reachable pool.
-/

namespace Syrotp

/-- A store and the calls in flight on it. -/
structure Pool (δ γ : Type*) where
  store : δ
  calls : List γ

/-- What one turn of a call leaves behind. -/
structure Turn (δ γ : Type*) where
  store : δ
  call : γ
  spawned : List γ

/-- The code of a pool: how a request becomes a call, and one turn of a call. -/
structure Program (δ γ ρ μ : Type*) where
  accept : δ → ρ → Option γ
  turn : δ → List γ → γ → μ → Option (Turn δ γ)

/-- The turn as it is seen in another store. -/
def Turn.mapStore {δ ε γ : Type*} (f : δ → ε) (t : Turn δ γ) : Turn ε γ :=
  ⟨f t.store, t.call, t.spawned⟩

theorem Turn.map_mapStore {α δ ε γ : Type*} {decided : Option α} {a : α → δ} {b : α → ε}
    {next : α → γ} {spawned : α → List γ} {f : δ → ε}
    (seen : ∀ r, decided = some r → f (a r) = b r) :
    (decided.map fun r => (⟨a r, next r, spawned r⟩ : Turn δ γ)).map (mapStore f) =
      decided.map fun r => ⟨b r, next r, spawned r⟩ := by
  cases decided with
  | none => rfl
  | some r => simp only [Option.map_some, mapStore, seen r rfl]

/-- A request arrives, or the call at a position takes its next turn. -/
inductive Act (ρ μ : Type*) where
  | arrive (request : ρ)
  | turn (i : Nat) (move : μ)

namespace Pool

variable {δ γ ρ μ τ : Type*} {prog : Program δ γ ρ μ} {p q : Pool δ γ}

/-- The calls other than the one at position `i`. -/
def others (p : Pool δ γ) (i : Nat) : List γ := p.calls.eraseIdx i

def step (prog : Program δ γ ρ μ) (p : Pool δ γ) : Act ρ μ → Option (Pool δ γ)
  | .arrive r => (prog.accept p.store r).map fun c => ⟨p.store, p.calls ++ [c]⟩
  | .turn i m =>
    match p.calls[i]? with
    | none => none
    | some c => (prog.turn p.store (p.others i) c m).map fun t =>
        ⟨t.store, p.calls.set i t.call ++ t.spawned⟩

/-- The pool as it is seen in another store. -/
def mapStore {ε : Type*} (f : δ → ε) (p : Pool δ γ) : Pool ε γ := ⟨f p.store, p.calls⟩

theorem mem_others {i : Nat} {o : γ} :
    o ∈ p.others i ↔ ∃ j, j ≠ i ∧ p.calls[j]? = some o :=
  List.mem_eraseIdx_iff_getElem?

theorem step_arrive {r : ρ} (h : p.step prog (.arrive r) = some q) :
    ∃ c, prog.accept p.store r = some c ∧ q = ⟨p.store, p.calls ++ [c]⟩ := by
  obtain ⟨c, hc, rfl⟩ := Option.map_eq_some_iff.mp h
  exact ⟨c, hc, rfl⟩

theorem step_turn {i : Nat} {m : μ} (h : p.step prog (.turn i m) = some q) :
    ∃ c t, p.calls[i]? = some c ∧ prog.turn p.store (p.others i) c m = some t ∧
      q = ⟨t.store, p.calls.set i t.call ++ t.spawned⟩ := by
  simp only [step] at h
  cases hc : p.calls[i]? with
  | none => simp [hc] at h
  | some c =>
    simp only [hc] at h
    obtain ⟨t, ht, rfl⟩ := Option.map_eq_some_iff.mp h
    exact ⟨c, t, rfl, ht, rfl⟩

/-- If what a request becomes and what a turn does can be seen in another store, so can a step. -/
theorem step_mapStore {ε : Type*} {f : δ → ε} {prog' : Program ε γ ρ μ} {a : Act ρ μ}
    (admitted : ∀ r, a = .arrive r → prog.accept p.store r = prog'.accept (f p.store) r)
    (turned : ∀ i m c, a = .turn i m → p.calls[i]? = some c →
      (prog.turn p.store (p.others i) c m).map (Turn.mapStore f) =
        prog'.turn (f p.store) (p.others i) c m) :
    (p.step prog a).map (mapStore f) = (p.mapStore f).step prog' a := by
  cases a with
  | arrive r =>
    simp only [step, mapStore, admitted r rfl, Option.map_map]
    rfl
  | turn i m =>
    cases hc : p.calls[i]? with
    | none => simp only [step, mapStore, hc, Option.map_none]
    | some c =>
      have seen := turned i m c rfl hc
      simp only [step, mapStore, hc, Option.map_map]
      rw [show Pool.others ⟨f p.store, p.calls⟩ i = p.others i from rfl, ← seen, Option.map_map]
      rfl

/-- Where the calls of the next pool come from: an earlier call still at its position, the
acting call's next stage, or a call the step added. -/
theorem turned_call {i j : Nat} {c x : γ} {t : Turn δ γ} (hi : p.calls[i]? = some c)
    (hj : (p.calls.set i t.call ++ t.spawned)[j]? = some x) :
    (j ≠ i ∧ p.calls[j]? = some x) ∨ (j = i ∧ x = t.call) ∨
      (p.calls.length ≤ j ∧ x ∈ t.spawned) := by
  have bound : i < p.calls.length := (List.getElem?_eq_some_iff.mp hi).1
  rcases Nat.lt_or_ge j p.calls.length with inside | outside
  · rw [List.getElem?_append_left (by simpa using inside), List.getElem?_set] at hj
    by_cases same : i = j
    · subst same
      simp only [if_true, bound] at hj
      exact .inr (.inl ⟨rfl, (Option.some.inj hj).symm⟩)
    · rw [if_neg same] at hj
      exact .inl ⟨Ne.symm same, hj⟩
  · rw [List.getElem?_append_right (by simpa using outside)] at hj
    exact .inr (.inr ⟨outside, List.mem_of_getElem? hj⟩)

theorem turned_self {i : Nat} {c : γ} {t : Turn δ γ} (hi : p.calls[i]? = some c) :
    (p.calls.set i t.call ++ t.spawned)[i]? = some t.call := by
  have bound : i < p.calls.length := (List.getElem?_eq_some_iff.mp hi).1
  rw [List.getElem?_append_left (by simpa using bound)]
  simp [bound]

theorem turned_other {i j : Nat} {x : γ} {t : Turn δ γ} (hj : p.calls[j]? = some x)
    (ne : j ≠ i) : (p.calls.set i t.call ++ t.spawned)[j]? = some x := by
  have bound : j < p.calls.length := (List.getElem?_eq_some_iff.mp hj).1
  rw [List.getElem?_append_left (by simpa using bound), List.getElem?_set_ne (Ne.symm ne)]
  exact hj

/-- A call is as it was unless the step is its turn. -/
theorem step_call {a : Act ρ μ} {i : Nat} {c : γ} (h : p.step prog a = some q)
    (hi : p.calls[i]? = some c) : q.calls[i]? = some c ∨
      ∃ m t, a = .turn i m ∧ prog.turn p.store (p.others i) c m = some t ∧
        q = ⟨t.store, p.calls.set i t.call ++ t.spawned⟩ := by
  cases a with
  | arrive r =>
    obtain ⟨_, _, rfl⟩ := step_arrive h
    have bound : i < p.calls.length := (List.getElem?_eq_some_iff.mp hi).1
    exact .inl ((List.getElem?_append_left bound).trans hi)
  | turn j m =>
    obtain ⟨x, t, hx, ht, rfl⟩ := step_turn h
    by_cases same : i = j
    · subst same
      obtain rfl : x = c := Option.some.inj (hx.symm.trans hi)
      exact .inr ⟨m, t, rfl, ht, rfl⟩
    · exact .inl (turned_other hi same)

/-- A call keeps its position, and what each turn relates is related along the run. -/
theorem call_persists {R : γ → γ → Prop} (refl : ∀ c, R c c)
    (trans : ∀ a b c, R a b → R b c → R a c)
    (related : ∀ d others c m t, prog.turn d others c m = some t → R c t.call)
    {log : List (Pool δ γ × Act ρ μ)} (run : Run (step prog) p log q) {i : Nat} {c : γ}
    (hc : p.calls[i]? = some c) : ∃ c', q.calls[i]? = some c' ∧ R c c' := by
  induction run with
  | start => exact ⟨c, hc, refl c⟩
  | @next log t u a _ hs ih =>
    obtain ⟨c', hc', hR⟩ := ih
    rcases step_call hs hc' with stays | ⟨m, y, rfl, hy, rfl⟩
    · exact ⟨c', stays, hR⟩
    · exact ⟨y.call, turned_self hc', trans _ _ _ hR (related _ _ _ _ _ hy)⟩

/-- Calls are never removed. -/
theorem calls_grow {log : List (Pool δ γ × Act ρ μ)} (run : Run (step prog) p log q) :
    p.calls.length ≤ q.calls.length := by
  refine run.rel (R := fun p q => p.calls.length ≤ q.calls.length) (fun _ => Nat.le_refl _)
    (fun _ _ _ => Nat.le_trans) fun t a u hs => ?_
  cases a with
  | arrive r =>
    obtain ⟨_, _, rfl⟩ := step_arrive hs
    simp
  | turn i m =>
    obtain ⟨_, _, _, _, rfl⟩ := step_turn hs
    simp

/-- A call that has taken a turn is one of the calls. -/
theorem logged_turn {log : List (Pool δ γ × Act ρ μ)} (run : Run (step prog) p log q) {i : Nat}
    {m : μ} {s : Pool δ γ} (logged : (s, Act.turn i m) ∈ log) : i < q.calls.length := by
  obtain ⟨_, v, _, _, _, hs, later⟩ := run.split logged
  obtain ⟨c, t, hc, _, rfl⟩ := step_turn hs
  obtain ⟨_, hc', _⟩ := call_persists (R := fun _ _ => True) (fun _ => trivial)
    (fun _ _ _ _ _ => trivial) (fun _ _ _ _ _ _ => trivial) later (turned_self hc)
  exact (List.getElem?_eq_some_iff.mp hc').1

/-- A fact about the log and each call: it holds of the calls that arrive or are started, before
they have taken a turn; the turns of the others do not disturb it; and a turn establishes it of the
call's next stage. Then it holds of every call of every run. -/
theorem call_history {K : List (Pool δ γ × Act ρ μ) → Nat → γ → Prop}
    (frame : ∀ log q a i c, (∀ m, a ≠ .turn i m) → K log i c → K (log ++ [(q, a)]) i c)
    (first : ∀ i c, p.calls[i]? = some c → K [] i c)
    (admitted : ∀ d r c, prog.accept d r = some c →
      ∀ log i, (∀ e ∈ log, ∀ m, e.2 ≠ .turn i m) → K log i c)
    (spawned : ∀ log q i c m t, Run (step prog) p log q → q.calls[i]? = some c →
      prog.turn q.store (q.others i) c m = some t →
        ∀ n ∈ t.spawned, ∀ log i, (∀ e ∈ log, ∀ m, e.2 ≠ .turn i m) → K log i n)
    (turned : ∀ log q i c m t, Run (step prog) p log q → q.calls[i]? = some c →
      prog.turn q.store (q.others i) c m = some t → K log i c →
        K (log ++ [(q, .turn i m)]) i t.call)
    {log : List (Pool δ γ × Act ρ μ)} (run : Run (step prog) p log q) :
    ∀ i c, q.calls[i]? = some c → K log i c := by
  induction run with
  | start => exact first
  | @next log q u a run hs ih =>
    intro j c hj
    have idle : ∀ {j}, q.calls.length ≤ j → ∀ e ∈ log, ∀ m, e.2 ≠ .turn j m := by
      rintro j outside ⟨s, _⟩ he m rfl
      exact absurd (logged_turn run he) (by omega)
    cases a with
    | arrive r =>
      obtain ⟨n, hn, rfl⟩ := step_arrive hs
      rcases Nat.lt_or_ge j q.calls.length with inside | outside
      · rw [List.getElem?_append_left inside] at hj
        exact frame _ _ _ j c nofun (ih j c hj)
      · rw [List.getElem?_append_right outside] at hj
        obtain rfl := List.mem_singleton.mp (List.mem_of_getElem? hj)
        exact frame _ _ _ j c nofun (admitted _ _ _ hn _ j (idle outside))
    | turn i m =>
      obtain ⟨x, t, hx, ht, rfl⟩ := step_turn hs
      have bound : i < q.calls.length := (List.getElem?_eq_some_iff.mp hx).1
      rcases turned_call hx hj with ⟨ne, hj⟩ | ⟨rfl, rfl⟩ | ⟨outside, new⟩
      · exact frame _ _ _ j c (fun _ same => ne (Act.turn.inj same).1.symm) (ih j c hj)
      · exact turned _ _ _ _ _ _ run hx ht (ih j x hx)
      · refine frame _ _ _ j c (fun _ same => ?_) (spawned _ _ _ _ _ _ run hx ht c new _ j
          (idle outside))
        have := (Act.turn.inj same).1
        omega

/-! ## Ownership -/

/-- No token has two owners. -/
def Exclusive (tokens : γ → List τ) (calls : List γ) : Prop :=
  ∀ (i j : Nat) (a b : γ), calls[i]? = some a → calls[j]? = some b → i ≠ j →
    ∀ k ∈ tokens a, k ∉ tokens b

/-- What a call may assume when its turn comes. -/
structure Settled (tokens : γ → List τ) (Inv : δ → Prop) (Ok : δ → γ → Prop)
    (d : δ) (others : List γ) (c : γ) : Prop where
  inv : Inv d
  self : Ok d c
  theirs : ∀ o ∈ others, Ok d o
  apart : ∀ o ∈ others, ∀ k ∈ tokens c, k ∉ tokens o

/-- The proof obligations of a pool: the store invariant, the call's own assertion, those of the
calls it starts, the frame of the others, and that a token is only taken when it is free. -/
structure Discipline (prog : Program δ γ ρ μ) (tokens : γ → List τ) (Inv : δ → Prop)
    (Ok : δ → γ → Prop) : Prop where
  admitted : ∀ {d r c}, Inv d → prog.accept d r = some c → Ok d c ∧ tokens c = []
  store : ∀ {d others c m t}, Settled tokens Inv Ok d others c →
    prog.turn d others c m = some t → Inv t.store
  self : ∀ {d others c m t}, Settled tokens Inv Ok d others c →
    prog.turn d others c m = some t → Ok t.store t.call
  spawned : ∀ {d others c m t}, Settled tokens Inv Ok d others c →
    prog.turn d others c m = some t → ∀ n ∈ t.spawned, Ok t.store n ∧ tokens n = []
  frame : ∀ {d others c m t}, Settled tokens Inv Ok d others c →
    prog.turn d others c m = some t → ∀ o ∈ others, Ok t.store o
  acquire : ∀ {d others c m t}, Settled tokens Inv Ok d others c →
    prog.turn d others c m = some t →
    ∀ k ∈ tokens t.call, k ∈ tokens c ∨ ∀ o ∈ others, k ∉ tokens o

/-- The state a discipline maintains. -/
structure Good (tokens : γ → List τ) (Inv : δ → Prop) (Ok : δ → γ → Prop)
    (p : Pool δ γ) : Prop where
  inv : Inv p.store
  ok : ∀ (i : Nat) (c : γ), p.calls[i]? = some c → Ok p.store c
  exclusive : Exclusive tokens p.calls

theorem Good.settled {tokens : γ → List τ} {Inv : δ → Prop} {Ok : δ → γ → Prop}
    (h : Good tokens Inv Ok p) {i : Nat} {c : γ} (hc : p.calls[i]? = some c) :
    Settled tokens Inv Ok p.store (p.others i) c where
  inv := h.inv
  self := h.ok i c hc
  theirs := fun o ho => by
    obtain ⟨j, _, hj⟩ := mem_others.mp ho
    exact h.ok j o hj
  apart := fun o ho => by
    obtain ⟨j, ne, hj⟩ := mem_others.mp ho
    exact h.exclusive i j c o hc hj (Ne.symm ne)

theorem exclusive_append {tokens : γ → List τ} {calls added : List γ}
    (h : Exclusive tokens calls) (none : ∀ n ∈ added, tokens n = []) :
    Exclusive tokens (calls ++ added) := by
  intro i j a b hi hj ne k hka hkb
  have old : ∀ {i : Nat} {a : γ}, (calls ++ added)[i]? = some a → k ∈ tokens a →
      calls[i]? = some a := by
    intro i a hi hk
    rcases Nat.lt_or_ge i calls.length with inside | outside
    · rwa [List.getElem?_append_left inside] at hi
    · rw [List.getElem?_append_right outside] at hi
      rw [none a (List.mem_of_getElem? hi)] at hk
      simp at hk
  exact h i j a b (old hi hka) (old hj hkb) ne k hka hkb

/-- The same for one call with tokens that are free. -/
theorem exclusive_append_one {tokens : γ → List τ} {calls : List γ} {n : γ}
    (h : Exclusive tokens calls) (free : ∀ o ∈ calls, ∀ k ∈ tokens n, k ∉ tokens o) :
    Exclusive tokens (calls ++ [n]) := by
  have call : ∀ {i : Nat} {a : γ}, (calls ++ [n])[i]? = some a →
      calls[i]? = some a ∨ i = calls.length ∧ a = n := by
    intro i a hi
    rcases Nat.lt_or_ge i calls.length with inside | outside
    · exact .inl ((List.getElem?_append_left inside).symm.trans hi)
    · rw [List.getElem?_append_right outside, List.getElem?_singleton] at hi
      obtain ⟨last, same⟩ := Option.ite_none_right_eq_some.mp hi
      exact .inr ⟨by omega, (Option.some.inj same).symm⟩
  intro i j a b hi hj ne k hka hkb
  rcases call hi with ha | ⟨rfl, rfl⟩ <;> rcases call hj with hb | ⟨rfl, rfl⟩
  · exact h i j a b ha hb ne k hka hkb
  · exact free a (List.mem_of_getElem? ha) k hkb hka
  · exact free b (List.mem_of_getElem? hb) k hka hkb
  · exact ne rfl

theorem exclusive_set {tokens : γ → List τ} {calls : List γ} {i : Nat} {c c' : γ}
    (h : Exclusive tokens calls) (hi : calls[i]? = some c)
    (acquire : ∀ k ∈ tokens c', k ∈ tokens c ∨ ∀ o ∈ calls.eraseIdx i, k ∉ tokens o) :
    Exclusive tokens (calls.set i c') := by
  have bound : i < calls.length := (List.getElem?_eq_some_iff.mp hi).1
  have apart : ∀ (j : Nat) (o : γ), j ≠ i → calls[j]? = some o → ∀ k ∈ tokens c', k ∉ tokens o := by
    intro j o ne hj k hk
    rcases acquire k hk with mine | free
    · exact h i j c o hi hj (Ne.symm ne) k mine
    · exact free o (List.mem_eraseIdx_iff_getElem?.mpr ⟨j, ne, hj⟩)
  intro a b x y ha hb ne k hx hy
  rw [List.getElem?_set] at ha hb
  by_cases ia : i = a
  · subst ia
    rw [if_neg ne] at hb
    simp only [if_true, bound, Option.some.injEq] at ha
    exact apart b y (Ne.symm ne) hb k (ha ▸ hx) hy
  · rw [if_neg ia] at ha
    by_cases ib : i = b
    · subst ib
      simp only [if_true, bound, Option.some.injEq] at hb
      exact apart a x ne ha k (hb ▸ hy) hx
    · rw [if_neg ib] at hb
      exact h a b x y ha hb ne k hx hy

/-- One step keeps what the discipline maintains. -/
theorem Discipline.step {tokens : γ → List τ} {Inv : δ → Prop} {Ok : δ → γ → Prop}
    (D : Discipline prog tokens Inv Ok) {a : Act ρ μ} (h : Good tokens Inv Ok p)
    (hs : p.step prog a = some q) : Good tokens Inv Ok q := by
  cases a with
  | arrive r =>
    obtain ⟨c, hc, rfl⟩ := step_arrive hs
    obtain ⟨ok, free⟩ := D.admitted h.inv hc
    refine ⟨h.inv, fun i x hx => ?_, exclusive_append h.exclusive (by simpa using free)⟩
    rcases List.mem_append.mp (List.mem_of_getElem? hx) with old | new
    · obtain ⟨j, hj⟩ := List.mem_iff_getElem?.mp old
      exact h.ok j x hj
    · exact List.mem_singleton.mp new ▸ ok
  | turn i m =>
    obtain ⟨c, t, hc, ht, rfl⟩ := step_turn hs
    have settled := h.settled hc
    refine ⟨D.store settled ht, fun j x hx => ?_, ?_⟩
    · rcases turned_call hc hx with ⟨ne, hj⟩ | ⟨_, rfl⟩ | ⟨_, new⟩
      · exact D.frame settled ht x (mem_others.mpr ⟨j, ne, hj⟩)
      · exact D.self settled ht
      · exact (D.spawned settled ht x new).1
    · exact exclusive_append (exclusive_set h.exclusive hc (D.acquire settled ht))
        fun n hn => (D.spawned settled ht n hn).2

/-- So does a whole run. -/
theorem Discipline.run {tokens : γ → List τ} {Inv : δ → Prop} {Ok : δ → γ → Prop}
    (D : Discipline prog tokens Inv Ok) {log : List (Pool δ γ × Act ρ μ)}
    (h : Good tokens Inv Ok p) (run : Run (Pool.step prog) p log q) : Good tokens Inv Ok q :=
  run.invariant h fun _ _ _ => D.step

end Pool

end Syrotp
