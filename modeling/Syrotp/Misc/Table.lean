import Mathlib.Data.List.Nodup

/-!
# Tables

A table is the list of its rows. `updateWhere` is `UPDATE … SET … WHERE …`; a unique index on a
column is `(t.map column).Nodup`, which an insert keeps when the key is new and an update keeps
when it leaves the column alone. A query that only asks for rows of a part of the table gives the
same on the part alone.
-/

namespace Syrotp

variable {ρ κ : Type*}

/-- `UPDATE t SET f WHERE p`. -/
def updateWhere (p : ρ → Bool) (f : ρ → ρ) (t : List ρ) : List ρ :=
  t.map fun r => if p r then f r else r

/-- Whether some row has `k` in the column. -/
def hasKey [DecidableEq κ] (column : ρ → κ) (k : κ) (t : List ρ) : Bool :=
  t.any fun r => column r = k

section

variable {p : ρ → Bool} {f : ρ → ρ} {t : List ρ} {r : ρ} {column : ρ → κ}

theorem mem_updateWhere {r' : ρ} :
    r' ∈ updateWhere p f t ↔ ∃ r ∈ t, (if p r then f r else r) = r' := List.mem_map

/-- An updated row is a new version of a row that met the condition, or a row left alone. -/
theorem mem_updateWhere_cases {r' : ρ} (h : r' ∈ updateWhere p f t) :
    (∃ r ∈ t, p r = true ∧ r' = f r) ∨ (r' ∈ t ∧ p r' = false) := by
  obtain ⟨r, hr, rfl⟩ := mem_updateWhere.mp h
  cases hp : p r with
  | true => exact .inl ⟨r, hr, hp, by simp⟩
  | false => exact .inr ⟨by simpa using hr, by simpa using hp⟩

theorem mem_updateWhere_of_pos (hr : r ∈ t) (hp : p r = true) : f r ∈ updateWhere p f t :=
  mem_updateWhere.mpr ⟨r, hr, by simp [hp]⟩

theorem mem_updateWhere_of_neg (hr : r ∈ t) (hp : p r = false) : r ∈ updateWhere p f t :=
  mem_updateWhere.mpr ⟨r, hr, by simp [hp]⟩

/-- An update that leaves a column alone leaves the list of its values alone. -/
theorem map_updateWhere (same : ∀ r, column (f r) = column r) :
    (updateWhere p f t).map column = t.map column := by
  simp only [updateWhere, List.map_map]
  refine List.map_congr_left fun r _ => ?_
  simp only [Function.comp_apply]
  split
  · exact same r
  · rfl

/-- So it keeps the index on that column unique. -/
theorem nodup_updateWhere (same : ∀ r, column (f r) = column r) (h : (t.map column).Nodup) :
    ((updateWhere p f t).map column).Nodup := by
  rw [map_updateWhere same]
  exact h

/-- If updated rows do not meet a condition, those that do are rows the update left alone. -/
theorem filter_updateWhere {q : ρ → Bool} (out : ∀ r, q (f r) = false) :
    (updateWhere p f t).filter q = t.filter fun r => !p r && q r := by
  induction t with
  | nil => rfl
  | cons r t ih =>
    have tail : updateWhere p f (r :: t) = (if p r then f r else r) :: updateWhere p f t := rfl
    cases hit : p r with
    | true =>
      rw [tail, if_pos hit, List.filter_cons_of_neg (by simp [out]), ih,
        List.filter_cons_of_neg (by simp [hit])]
    | false =>
      rw [tail, if_neg (by simp [hit]), List.filter_cons, List.filter_cons, ih]
      simp [hit]

theorem hasKey_iff [DecidableEq κ] {k : κ} :
    hasKey column k t = true ↔ ∃ r ∈ t, column r = k := by
  simp [hasKey]

theorem hasKey_eq_false [DecidableEq κ] {k : κ} :
    hasKey column k t = false ↔ ∀ r ∈ t, column r ≠ k := by
  simp [hasKey]

theorem all_congr_mem {q : ρ → Bool} (h : ∀ r ∈ t, p r = q r) : t.all p = t.all q := by
  rw [Bool.eq_iff_iff, List.all_eq_true, List.all_eq_true]
  exact forall₂_congr fun r hr => by rw [h r hr]

/-- Inserting a row with a new key keeps the index unique. -/
theorem nodup_insert [DecidableEq κ] (h : (t.map column).Nodup)
    (fresh : hasKey column (column r) t = false) : ((t ++ [r]).map column).Nodup := by
  rw [List.map_append, List.nodup_append]
  refine ⟨h, by simp, ?_⟩
  intro k hk k' hk'
  obtain ⟨x, hx, rfl⟩ := List.mem_map.mp hk
  rw [List.map_singleton, List.mem_singleton] at hk'
  rw [hk']
  exact hasKey_eq_false.mp fresh x hx

/-- A unique key names one row. -/
theorem eq_of_key (h : (t.map column).Nodup) {r r' : ρ} (hr : r ∈ t) (hr' : r' ∈ t)
    (same : column r = column r') : r = r' := List.inj_on_of_nodup_map h hr hr' same

/-- An update that no row meets leaves the table alone. -/
theorem updateWhere_of_none (none : ∀ r ∈ t, p r = false) : updateWhere p f t = t := by
  rw [updateWhere, List.map_congr_left (g := id) fun r hr => by simp [none r hr], List.map_id]

/-- An update by a unique key replaces one row in every count. -/
theorem countP_updateWhere [DecidableEq κ] {q : ρ → Bool} {row : ρ}
    (unique : (t.map column).Nodup) (hr : r ∈ t) (same : column r = column row) :
    (updateWhere (fun x => column x = column row) (fun _ => row) t).countP q +
        (if q r then 1 else 0) = t.countP q + if q row then 1 else 0 := by
  induction t with
  | nil => cases hr
  | cons x t ih =>
    obtain ⟨other, unique⟩ := List.nodup_cons.mp unique
    have step : updateWhere (fun x => decide (column x = column row)) (fun _ => row) (x :: t) =
        (if column x = column row then row else x) ::
          updateWhere (fun x => decide (column x = column row)) (fun _ => row) t := by
      simp [updateWhere]
    rw [step, List.countP_cons, List.countP_cons]
    rcases List.mem_cons.mp hr with rfl | hr
    · have rest : updateWhere (fun x => decide (column x = column row)) (fun _ => row) t = t := by
        refine updateWhere_of_none fun y hy => decide_eq_false fun hit => other ?_
        exact List.mem_map.mpr ⟨y, hy, hit.trans same.symm⟩
      rw [rest, if_pos same]
      omega
    · have miss : column x ≠ column row := by
        intro hit
        exact other (List.mem_map.mpr ⟨r, hr, same.trans hit.symm⟩)
      have := ih unique hr
      rw [if_neg miss]
      omega

/-- A partial unique index, over rows that another column tells apart. -/
theorem nodup_filter_map_iff {ι : Type*} {key : ρ → ι} (keys : (t.map key).Nodup) :
    ((t.filter p).map column).Nodup ↔ ∀ r ∈ t, ∀ r' ∈ t, p r = true → p r' = true →
      column r = column r' → key r = key r' := by
  have rows : (t.filter p).Nodup := (List.Nodup.of_map key keys).filter p
  rw [List.nodup_map_iff_inj_on rows]
  constructor
  · intro injective r hr r' hr' hit hit' same
    rw [injective r (List.mem_filter.mpr ⟨hr, hit⟩) r' (List.mem_filter.mpr ⟨hr', hit'⟩) same]
  · intro unique r hr r' hr' same
    obtain ⟨hr, hit⟩ := List.mem_filter.mp hr
    obtain ⟨hr', hit'⟩ := List.mem_filter.mp hr'
    exact eq_of_key keys hr hr' (unique r hr r' hr' hit hit' same)

/-! ## A part of a table -/

variable {mine q : ρ → Bool}

/-- A query whose rows are all in a part of the table does not see the rest. -/
theorem filter_part (h : ∀ r ∈ t, q r = true → mine r = true) :
    (t.filter mine).filter q = t.filter q := by
  rw [List.filter_filter]
  apply List.filter_congr
  intro r hr
  cases hq : q r with
  | false => rfl
  | true => rw [h r hr hq]; rfl

theorem find?_part (h : ∀ r ∈ t, q r = true → mine r = true) :
    (t.filter mine).find? q = t.find? q := by
  rw [← List.head?_filter, ← List.head?_filter, filter_part h]

theorem countP_part (h : ∀ r ∈ t, q r = true → mine r = true) :
    (t.filter mine).countP q = t.countP q := by
  rw [List.countP_eq_length_filter, List.countP_eq_length_filter, filter_part h]

theorem any_part (h : ∀ r ∈ t, q r = true → mine r = true) :
    (t.filter mine).any q = t.any q := by
  rw [Bool.eq_iff_iff, List.any_eq_true, List.any_eq_true]
  constructor
  · rintro ⟨r, hr, hq⟩
    exact ⟨r, (List.mem_filter.mp hr).1, hq⟩
  · rintro ⟨r, hr, hq⟩
    exact ⟨r, List.mem_filter.mpr ⟨hr, h r hr hq⟩, hq⟩

theorem hasKey_part [DecidableEq κ] {k : κ} (h : ∀ r ∈ t, column r = k → mine r = true) :
    hasKey column k (t.filter mine) = hasKey column k t :=
  any_part fun r hr hit => h r hr (of_decide_eq_true hit)

/-- An update that moves no row in or out of the part is an update of the part. -/
theorem filter_updateWhere_part (same : ∀ r ∈ t, p r = true → mine (f r) = mine r) :
    (updateWhere p f t).filter mine = updateWhere p f (t.filter mine) := by
  unfold updateWhere
  rw [List.filter_map]
  refine congrArg _ (List.filter_congr fun r hr => ?_)
  rw [Function.comp_apply]
  split
  · next hit => exact same r hr hit
  · rfl

/-- An update of rows that are not there does nothing. -/
theorem updateWhere_eq_self (none : ∀ r ∈ t, p r = false) : updateWhere p f t = t := by
  unfold updateWhere
  rw [List.map_congr_left (g := id) fun r hr => by simp [none r hr], List.map_id]

/-- An update of rows outside the part leaves the part alone. -/
theorem filter_updateWhere_apart (same : ∀ r ∈ t, p r = true → mine (f r) = mine r)
    (apart : ∀ r ∈ t, p r = true → mine r = false) : (updateWhere p f t).filter mine =
      t.filter mine := by
  rw [filter_updateWhere_part same]
  apply updateWhere_eq_self
  intro r hr
  obtain ⟨ht, hm⟩ := List.mem_filter.mp hr
  cases hit : p r with
  | false => rfl
  | true => exact absurd hm (by rw [apart r ht hit]; exact Bool.false_ne_true)

end

end Syrotp
