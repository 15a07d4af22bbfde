import Mathlib.Data.List.Dedup
import Mathlib.Algebra.Order.Field.Rat
import Mathlib.Tactic.Positivity
import Syrotp.Misc.Table

/-!
# Groups, counted and merged

`tally` is `SELECT key, count(*), count(*) FILTER (WHERE …) … GROUP BY key`. An `Upsert` writes
such answers into a table by key, as a loop does over a map that keeps the order of insertion: an
entry with a new key gets a fresh row, and then every entry updates the row of its key. What a row
is after the loop is what its own entries make of the row that was there, or of a fresh one.
-/

namespace Syrotp

variable {ρ κ ε : Type*} [DecidableEq κ]

/-- A row of a grouped count. -/
structure Tally (κ : Type*) where
  key : κ
  total : Nat
  hits : Nat
  hits_le : hits ≤ total
  deriving DecidableEq, Repr

def tally (key : ρ → κ) (hit : ρ → Bool) (rows : List ρ) : List (Tally κ) :=
  (rows.map key).dedup.map fun k =>
    let group := rows.filter fun r => key r = k
    ⟨k, group.length, group.countP hit, List.countP_le_length⟩

section

variable {key : ρ → κ} {hit : ρ → Bool} {rows : List ρ}

theorem map_key_tally : (tally key hit rows).map (·.key) = (rows.map key).dedup := by
  simp [tally, List.map_map, Function.comp_def]

/-- There is a group for a key exactly when some row has it. -/
theorem mem_key_tally {k : κ} :
    k ∈ (tally key hit rows).map (·.key) ↔ ∃ r ∈ rows, key r = k := by
  rw [map_key_tally, List.mem_dedup, List.mem_map]

/-- What a group counts. -/
theorem mem_tally {t : Tally κ} (h : t ∈ tally key hit rows) :
    t.total = (rows.filter fun r => key r = t.key).length ∧
      t.hits = (rows.filter fun r => key r = t.key).countP hit := by
  obtain ⟨k, -, rfl⟩ := List.mem_map.mp h
  exact ⟨rfl, rfl⟩

/-- One group for a key. -/
theorem nodup_key_tally : ((tally key hit rows).map (·.key)).Nodup := by
  rw [map_key_tally]
  exact List.nodup_dedup _

end

/-! ## Ratios -/

/-- `whole > 0 ? part / whole : 0`. -/
def ratio (part whole : Nat) : ℚ := if 0 < whole then part / whole else 0

theorem ratio_nonneg (part whole : Nat) : 0 ≤ ratio part whole := by
  unfold ratio
  split
  · positivity
  · exact le_rfl

theorem ratio_le_one {part whole : Nat} (le : part ≤ whole) : ratio part whole ≤ 1 := by
  unfold ratio
  split
  next pos =>
    rw [div_le_one (by exact_mod_cast pos)]
    exact_mod_cast le
  · exact zero_le_one

/-! ## Merging by key -/

/-- A loop that writes entries into a map: `ensure` of the entry's key, then an assignment to the
fields of its row. -/
structure Upsert (ρ κ ε : Type*) where
  column : ρ → κ
  fresh : κ → ρ
  key : ε → κ
  update : ε → ρ → ρ
  column_fresh : ∀ k, column (fresh k) = k
  column_update : ∀ e r, column (update e r) = column r

namespace Upsert

variable (u : Upsert ρ κ ε)

/-- The row of a key, put at the end when there is none. -/
def ensure (k : κ) (t : List ρ) : List ρ :=
  if hasKey u.column k t then t else t ++ [u.fresh k]

def step (t : List ρ) (e : ε) : List ρ :=
  updateWhere (fun r => u.column r = u.key e) (u.update e) (u.ensure (u.key e) t)

def run (entries : List ε) (t : List ρ) : List ρ := entries.foldl u.step t

/-- What the row of a key is before the loop: the one that is there, or a fresh one. -/
def StartsFrom (t : List ρ) (k : κ) (r : ρ) : Prop :=
  (r ∈ t ∧ u.column r = k) ∨ (k ∉ t.map u.column ∧ r = u.fresh k)

variable {u} {entries : List ε} {t : List ρ} {k : κ} {e : ε} {r : ρ}

omit [DecidableEq κ] in
theorem StartsFrom.column_eq (h : u.StartsFrom t k r) : u.column r = k := by
  rcases h with ⟨-, same⟩ | ⟨-, rfl⟩
  · exact same
  · exact u.column_fresh k

theorem hasKey_iff_mem : hasKey u.column k t = true ↔ k ∈ t.map u.column := by
  rw [hasKey_iff, List.mem_map]

theorem startsFrom_of_mem_ensure (h : r ∈ u.ensure k t) (same : u.column r = k) :
    u.StartsFrom t k r := by
  unfold ensure at h
  split at h
  · exact .inl ⟨h, same⟩
  next missing =>
    rcases List.mem_append.mp h with old | new
    · exact .inl ⟨old, same⟩
    · exact .inr ⟨mt hasKey_iff_mem.mpr missing, List.mem_singleton.mp new⟩

theorem mem_of_mem_ensure (h : r ∈ u.ensure k t) (other : u.column r ≠ k) : r ∈ t := by
  unfold ensure at h
  split at h
  · exact h
  · rcases List.mem_append.mp h with old | new
    · exact old
    · rw [List.mem_singleton.mp new] at other
      exact absurd (u.column_fresh k) other

/-- What one entry makes of the table: its own row updated, the others left alone. -/
theorem mem_step (h : r ∈ u.step t e) :
    (r ∈ t ∧ u.column r ≠ u.key e) ∨
      ∃ before, u.StartsFrom t (u.key e) before ∧ r = u.update e before := by
  rcases mem_updateWhere_cases h with ⟨before, there, hit, rfl⟩ | ⟨there, miss⟩
  · exact .inr ⟨before, startsFrom_of_mem_ensure there (of_decide_eq_true hit), rfl⟩
  · have other := of_decide_eq_false miss
    exact .inl ⟨mem_of_mem_ensure there other, other⟩

theorem map_step : (u.step t e).map u.column =
    if u.key e ∈ t.map u.column then t.map u.column else t.map u.column ++ [u.key e] := by
  rw [step, map_updateWhere (u.column_update e), ensure]
  simp only [hasKey_iff_mem]
  split
  · rfl
  · rw [List.map_append, List.map_singleton, u.column_fresh]

theorem mem_map_step :
    k ∈ (u.step t e).map u.column ↔ k ∈ t.map u.column ∨ k = u.key e := by
  rw [map_step]
  split
  next old =>
    refine ⟨.inl, ?_⟩
    rintro (there | rfl)
    · exact there
    · exact old
  · rw [List.mem_append, List.mem_singleton]

theorem nodup_step (unique : (t.map u.column).Nodup) : ((u.step t e).map u.column).Nodup := by
  rw [map_step]
  split
  · exact unique
  next new => exact List.Nodup.append unique (List.nodup_singleton _) (by simpa using new)

/-- The keys after the loop are those before it and those of the entries. -/
theorem mem_map_run :
    k ∈ (u.run entries t).map u.column ↔ k ∈ t.map u.column ∨ k ∈ entries.map u.key := by
  induction entries generalizing t with
  | nil => simp [run]
  | cons e entries ih =>
    have tail : u.run (e :: entries) t = u.run entries (u.step t e) := rfl
    rw [tail, ih, mem_map_step, List.map_cons, List.mem_cons, or_assoc]

/-- A key keeps one row. -/
theorem nodup_run (unique : (t.map u.column).Nodup) : ((u.run entries t).map u.column).Nodup := by
  induction entries generalizing t with
  | nil => exact unique
  | cons e entries ih => exact ih (nodup_step unique)

/-- A row after the loop is what its own entries, in their order, make of the row before it. -/
theorem mem_run (h : r ∈ u.run entries t) :
    ∃ before, u.StartsFrom t (u.column r) before ∧
      r = (entries.filter fun e => u.key e = u.column r).foldl (fun r e => u.update e r)
        before := by
  induction entries generalizing t with
  | nil => exact ⟨r, .inl ⟨h, rfl⟩, rfl⟩
  | cons e entries ih =>
    obtain ⟨middle, starts, eq⟩ := ih h
    by_cases mine : u.key e = u.column r
    · rcases starts with ⟨there, same⟩ | ⟨missing, -⟩
      · rcases mem_step there with ⟨-, other⟩ | ⟨before, starts, rfl⟩
        · exact absurd (mine.trans same.symm).symm other
        · refine ⟨before, mine ▸ starts, ?_⟩
          rw [List.filter_cons, if_pos (decide_eq_true mine)]
          exact eq
      · exact absurd (mem_map_step.mpr (.inr mine.symm)) missing
    · refine ⟨middle, ?_, ?_⟩
      · rcases starts with ⟨there, same⟩ | ⟨missing, rfl⟩
        · rcases mem_step there with ⟨old, -⟩ | ⟨before, starts, rfl⟩
          · exact .inl ⟨old, same⟩
          · refine absurd ?_ mine
            rw [← same, u.column_update, starts.column_eq]
        · exact .inr ⟨fun old => missing (mem_map_step.mpr (.inl old)), rfl⟩
      · rw [List.filter_cons_of_neg (by simpa using mine)]
        exact eq

/-- What the rows before it have, fresh rows of new keys have and updates keep, every row has after
the loop. -/
theorem forall_run {P : ρ → Prop} (old : ∀ r ∈ t, P r)
    (fresh : ∀ k, k ∉ t.map u.column → P (u.fresh k))
    (update : ∀ e r, P r → P (u.update e r)) : ∀ r ∈ u.run entries t, P r := by
  induction entries generalizing t with
  | nil => exact old
  | cons e entries ih =>
    refine ih ?_ fun k new => fresh k fun there => new (mem_map_step.mpr (.inl there))
    intro r there
    rcases mem_step there with ⟨there, -⟩ | ⟨before, ⟨was, -⟩ | ⟨new, rfl⟩, rfl⟩
    · exact old r there
    · exact update e before (old before was)
    · exact update e _ (fresh _ new)

end Upsert

end Syrotp
