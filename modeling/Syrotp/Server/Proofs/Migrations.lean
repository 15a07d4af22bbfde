import Syrotp.Server.Migrations
import Syrotp.Misc.IpLiteral
import Syrotp.Misc.Simulation
import Mathlib.Data.List.Nodup

/-!
# Forward only

Releases that only ever add migrations after the old ones agree on one list of them. Then the
database has always seen a first part of that list, in order and each migration once, however many
deploys run at a time and wherever they break off.
-/

namespace Syrotp

/-! ## Checksums -/

theorem hexDigit_value : ∀ d < 16, Text.hexDigit (hexDigit d) = d := by decide

/-- A number that is printed in hexadecimal is read back. -/
theorem hexadecimal_radix16 (n : Nat) : Text.hexadecimal (Text.radix16 n) = n := by
  have digits : ∀ ds : List Nat, (∀ d ∈ ds, d < 16) →
      Text.hexadecimal (ds.reverse.map hexDigit) = Nat.ofDigits 16 ds := by
    intro ds small
    induction ds with
    | nil => rfl
    | cons d ds ih =>
      have last : d < 16 := small d List.mem_cons_self
      have rest := ih fun d hd => small d (List.mem_cons_of_mem _ hd)
      unfold Text.hexadecimal at rest ⊢
      rw [List.reverse_cons, List.map_append, List.foldl_append, rest, Nat.ofDigits_cons]
      simp only [List.map_cons, List.map_nil, List.foldl_cons, List.foldl_nil, hexDigit_value d last]
      omega
  unfold Text.radix16
  by_cases zero : n = 0
  · subst zero
    decide
  · rw [if_neg zero, digits _ fun d hd => Nat.digits_lt_base (by omega) hd]
    exact Nat.ofDigits_digits 16 n

/-- A turn of the loop loses nothing: the prime is odd. -/
theorem xor_of_fnvStep {g h : UInt32} {c d : UInt16} (same : fnvStep g c = fnvStep h d) :
    g ^^^ c.toUInt32 = h ^^^ d.toUInt32 := by
  have undone : ∀ x : UInt32, x * 0x01000193 * 0x359c449b = x := by
    intro x
    rw [UInt32.mul_assoc, show (0x01000193 : UInt32) * 0x359c449b = 1 by decide, UInt32.mul_one]
  unfold fnvStep at same
  rw [← undone (g ^^^ c.toUInt32), same, undone]

theorem foldl_fnvStep_injective (s : Text) {g h : UInt32}
    (same : s.foldl fnvStep g = s.foldl fnvStep h) : g = h := by
  induction s generalizing g h with
  | nil => exact same
  | cons c s ih =>
    apply (UInt32.xor_left_inj c.toUInt32).mp
    exact xor_of_fnvStep (ih same)

/-- The checksum of a migration tells every change of a single character. -/
theorem checksum_tells_a_change (before after : Text) {c d : UInt16} (other : c ≠ d) :
    simpleHash (before ++ c :: after) ≠ simpleHash (before ++ d :: after) := by
  intro same
  have hash : (before ++ c :: after).foldl fnvStep 0x811c9dc5 =
      (before ++ d :: after).foldl fnvStep 0x811c9dc5 := by
    apply UInt32.toNat_inj.mp
    have read := congrArg Text.hexadecimal same
    unfold simpleHash at read
    rwa [hexadecimal_radix16, hexadecimal_radix16] at read
  rw [List.foldl_append, List.foldl_append, List.foldl_cons, List.foldl_cons] at hash
  have step := xor_of_fnvStep (foldl_fnvStep_injective after hash)
  have chars : c.toUInt32 = d.toUInt32 := (UInt32.xor_right_inj _).mp step
  apply other
  apply UInt16.toNat_inj.mp
  rw [← UInt16.toNat_toUInt32, chars, UInt16.toNat_toUInt32]

theorem checksum_tells_a_change_case :
    simpleHash (text "DROP TABLE a;") ≠ simpleHash (text "DROP TABLE b;") :=
  checksum_tells_a_change (text "DROP TABLE ") (text ";") (c := 97) (d := 98) (by decide)

/-! ## Runs -/

section

variable {σ : Type*} {effect : Text → σ → Option σ} {schema : σ} {all : List MigrationFile}

/-- What the bodies of migrations make of a schema, one after the other. -/
def appliedTo (effect : Text → σ → Option σ) (schema : σ) (files : List MigrationFile) : Option σ :=
  files.foldlM (fun s f => effect f.body s) schema

theorem appliedTo_append (files more : List MigrationFile) :
    appliedTo effect schema (files ++ more) =
      (appliedTo effect schema files).bind fun s => appliedTo effect s more := by
  simp [appliedTo, List.foldlM_append]

/-- What is left for a process to do. -/
def MigratePhase.rest : MigratePhase → List MigrationFile → List MigrationFile
  | .createTable, files => files
  | .select file rest, _ => file :: rest
  | .begin file rest, _ => file :: rest
  | .done, _ => []
  | .failed, files => files

/-- The database has seen the first `k` migrations. -/
structure Migrated (effect : Text → σ → Option σ) (schema : σ) (all : List MigrationFile) (k : Nat)
    (db : MigrationDb σ) : Prop where
  bound : k ≤ all.length
  rows : db.applied.getD [] = (all.take k).map (·.row)
  schema : appliedTo effect schema (all.take k) = some db.schema

/-- Where a process is: what it has been through is among the first `k` migrations. -/
structure Migrator.Placed (all : List MigrationFile) (k : Nat) (r : Migrator) : Prop where
  release : r.files <+: all
  progress : ∃ passed, r.files = passed ++ r.phase.rest r.files ∧ passed.length ≤ k

theorem Migrator.Placed.mono {k l : Nat} {r : Migrator} (placed : r.Placed all k) (le : k ≤ l) :
    r.Placed all l := by
  obtain ⟨passed, split, bound⟩ := placed.progress
  exact ⟨placed.release, passed, split, by omega⟩

/-- Whether a migration is recorded is told by its position. -/
theorem Migrated.hasKey_iff {k : Nat} {db : MigrationDb σ} {rows : List MigrationRow}
    (names : (all.map (·.name)).Nodup) (seen : Migrated effect schema all k db)
    (there : db.applied = some rows) {j : Nat} {file : MigrationFile} (hj : all[j]? = some file) :
    hasKey (·.name) file.name rows = true ↔ j < k := by
  have recorded : rows = (all.take k).map (·.row) := by
    rw [← seen.rows, there]
    rfl
  rw [Syrotp.hasKey_iff, recorded]
  constructor
  · rintro ⟨row, hrow, same⟩
    obtain ⟨f, hf, rfl⟩ := List.mem_map.mp hrow
    obtain ⟨i, hi⟩ := List.mem_iff_getElem?.mp hf
    rw [List.getElem?_take] at hi
    obtain ⟨below, hi⟩ := Option.ite_none_right_eq_some.mp hi
    have hi' : (all.map (·.name))[i]? = some file.name := by simp [hi, ← same, MigrationFile.row]
    have hj' : (all.map (·.name))[j]? = some file.name := by simp [hj]
    have inside := (List.getElem?_eq_some_iff.mp hi').1
    have same : i = j := List.getElem?_inj inside names |>.mp (hi'.trans hj'.symm)
    rwa [← same]
  · intro below
    refine ⟨file.row, List.mem_map.mpr ⟨file, ?_, rfl⟩, rfl⟩
    apply List.mem_iff_getElem?.mpr
    exact ⟨j, by rw [List.getElem?_take, if_pos below, hj]⟩

theorem placed_loop {files passed rest : List MigrationFile} {k : Nat} (release : files <+: all)
    (split : files = passed ++ rest) (bound : passed.length ≤ k) :
    Migrator.Placed all k ⟨files, migrateLoop rest⟩ := by
  cases rest with
  | nil => exact ⟨release, passed, split, bound⟩
  | cons file rest => exact ⟨release, passed, split, bound⟩

theorem placed_failed {files : List MigrationFile} {k : Nat} (release : files <+: all) :
    Migrator.Placed all k ⟨files, .failed⟩ := ⟨release, [], rfl, Nat.zero_le k⟩

/-- A statement keeps the order, and commits no migration but the next one. -/
theorem migrate_seen {k : Nat} {db db' : MigrationDb σ} {r : Migrator} {next : MigratePhase}
    (names : (all.map (·.name)).Nodup) (seen : Migrated effect schema all k db)
    (placed : r.Placed all k) (h : migrate effect r.files db r.phase = some (next, db')) :
    ∃ l, k ≤ l ∧ Migrated effect schema all l db' ∧ Migrator.Placed all l ⟨r.files, next⟩ := by
  obtain ⟨passed, split, bound⟩ := placed.progress
  have release := placed.release
  have here : ∀ file rest, r.phase.rest r.files = file :: rest →
      all[passed.length]? = some file ∧ r.files = (passed ++ [file]) ++ rest := by
    intro file rest remaining
    rw [remaining] at split
    constructor
    · obtain ⟨more, whole⟩ := release
      rw [← whole, split]
      simp
    · rw [split, List.append_assoc]
      rfl
  have stays : Migrated effect schema all k db' → Migrator.Placed all k ⟨r.files, next⟩ →
      ∃ l, k ≤ l ∧ Migrated effect schema all l db' ∧ Migrator.Placed all l ⟨r.files, next⟩ :=
    fun seen placed => ⟨k, Nat.le_refl k, seen, placed⟩
  cases phase : r.phase with
  | createTable =>
    simp only [phase, migrate, Option.some.injEq, Prod.mk.injEq] at h
    obtain ⟨rfl, rfl⟩ := h
    apply stays
    · exact ⟨seen.bound, seen.rows, seen.schema⟩
    · rw [phase] at split
      exact placed_loop release split bound
  | select file rest =>
    obtain ⟨position, split'⟩ := here file rest (by rw [phase]; rfl)
    simp only [phase, migrate] at h
    cases table : db.applied with
    | none =>
      simp only [table, Option.some.injEq, Prod.mk.injEq] at h
      obtain ⟨rfl, rfl⟩ := h
      exact stays seen (placed_failed release)
    | some rows =>
      have recorded := seen.hasKey_iff names table position
      simp only [table] at h
      by_cases known : hasKey (·.name) file.name rows = true
      · rw [if_pos known] at h
        cases h
        have below := recorded.mp known
        exact stays seen (placed_loop release split' (by simp; omega))
      · rw [if_neg known] at h
        cases h
        rw [phase] at split
        exact stays seen ⟨release, passed, split, bound⟩
  | «begin» file rest =>
    obtain ⟨position, split'⟩ := here file rest (by rw [phase]; rfl)
    simp only [phase, migrate] at h
    cases table : db.applied with
    | none =>
      simp only [table, Option.some.injEq, Prod.mk.injEq] at h
      obtain ⟨rfl, rfl⟩ := h
      exact stays seen (placed_failed release)
    | some rows =>
      cases after : effect file.body db.schema with
      | none =>
        simp only [table, after, Option.some.injEq, Prod.mk.injEq] at h
        obtain ⟨rfl, rfl⟩ := h
        exact stays seen (placed_failed release)
      | some schema' =>
        have recorded := seen.hasKey_iff names table position
        simp only [table, after] at h
        by_cases known : hasKey (·.name) file.name rows = true
        · rw [if_pos known] at h
          cases h
          exact stays seen (placed_failed release)
        · rw [if_neg known] at h
          cases h
          -- All that it has been through is recorded and this migration is not, so it is the next.
          have atEnd : passed.length = k := by
            have := mt recorded.mpr known
            omega
          rw [atEnd] at position
          have grown : all.take (k + 1) = all.take k ++ [file] := by
            rw [List.take_add_one, position]
            rfl
          have inside := (List.getElem?_eq_some_iff.mp position).1
          refine ⟨k + 1, by omega, ⟨inside, ?_, ?_⟩, placed_loop release split' (by simp; omega)⟩
          · have old : rows = (all.take k).map (·.row) := by
              rw [← seen.rows, table]
              rfl
            simp [grown, old]
          · rw [grown, appliedTo_append, seen.schema]
            simp [appliedTo, after]
  | done => simp [phase, migrate] at h
  | failed => simp [phase, migrate] at h

/-- So does a turn, however it goes. -/
theorem Migrator.turn_seen {k : Nat} {db : MigrationDb σ} {r : Migrator} {m : MigrateMove}
    {t : Turn (MigrationDb σ) Migrator} (names : (all.map (·.name)).Nodup)
    (seen : Migrated effect schema all k db) (placed : r.Placed all k)
    (h : r.turn effect db m = some t) :
    t.spawned = [] ∧ ∃ l, k ≤ l ∧ Migrated effect schema all l t.store ∧ t.call.Placed all l := by
  cases m with
  | statement =>
    obtain ⟨⟨next, db'⟩, step, rfl⟩ := Option.map_eq_some_iff.mp h
    exact ⟨rfl, migrate_seen names seen placed step⟩
  | error =>
    obtain ⟨_, hit⟩ := Option.ite_none_right_eq_some.mp h
    obtain rfl := Option.some.inj hit
    exact ⟨rfl, k, Nat.le_refl k, seen, placed_failed placed.release⟩
  | lost =>
    obtain ⟨⟨next, db'⟩, step, rfl⟩ := Option.map_eq_some_iff.mp h
    obtain ⟨l, le, seen', _⟩ := migrate_seen names seen placed step
    exact ⟨rfl, l, le, seen', placed_failed placed.release⟩

/-- No statement takes a row away. -/
theorem migrate_rows {files : List MigrationFile} {db db' : MigrationDb σ}
    {phase next : MigratePhase} (h : migrate effect files db phase = some (next, db')) :
    db.applied.getD [] <+: db'.applied.getD [] := by
  cases phase with
  | createTable => cases h; exact List.prefix_rfl
  | select file rest =>
    simp only [migrate] at h
    split at h
    · cases h; exact List.prefix_rfl
    · split at h <;> cases h <;> exact List.prefix_rfl
  | «begin» file rest =>
    simp only [migrate] at h
    split at h
    · next table _ =>
      split at h
      · cases h; exact List.prefix_rfl
      · cases h
        rw [table]
        exact List.prefix_append _ _
    · cases h; exact List.prefix_rfl
  | done => cases h
  | failed => cases h

variable {log : List (Deploys σ × Act (List MigrationFile) MigrateMove)} {p : Deploys σ}

theorem step_rows {q : Deploys σ} {a : Act (List MigrationFile) MigrateMove}
    (step : p.step (migrations effect) a = some q) :
    p.store.applied.getD [] <+: q.store.applied.getD [] := by
  cases a with
  | arrive directory =>
    obtain ⟨_, _, rfl⟩ := Pool.step_arrive step
    exact List.prefix_rfl
  | turn i m =>
    obtain ⟨r, t, _, ht, rfl⟩ := Pool.step_turn step
    cases m with
    | statement =>
      obtain ⟨_, taken, rfl⟩ := Option.map_eq_some_iff.mp ht
      exact migrate_rows taken
    | error =>
      obtain ⟨_, hit⟩ := Option.ite_none_right_eq_some.mp ht
      obtain rfl := Option.some.inj hit
      exact List.prefix_rfl
    | lost =>
      obtain ⟨_, taken, rfl⟩ := Option.map_eq_some_iff.mp ht
      exact migrate_rows taken

/-- The releases of a run agree on a list of migrations. -/
def Released (all : List MigrationFile)
    (log : List (Deploys σ × Act (List MigrationFile) MigrateMove)) : Prop :=
  ∀ s directory, (s, .arrive directory) ∈ log → migrationFiles directory <+: all

/-- How far each moment of a run has come. -/
theorem MigrationRun.seen (names : (all.map (·.name)).Nodup) (run : MigrationRun effect schema log p)
    (released : Released all log) :
    ∃ k, Migrated effect schema all k p.store ∧ ∀ r ∈ p.calls, r.Placed all k := by
  induction run with
  | start =>
    refine ⟨0, ⟨Nat.zero_le _, by simp, by simp [appliedTo]⟩, ?_⟩
    intro r hr
    cases hr
  | @next log p q a _ step ih =>
    have earlier : Released all log := fun s directory h =>
      released s directory (List.mem_append_left _ h)
    obtain ⟨k, seen, placed⟩ := ih earlier
    cases a with
    | arrive directory =>
      obtain ⟨r, hr, rfl⟩ := Pool.step_arrive step
      obtain rfl := Option.some.inj hr
      refine ⟨k, seen, ?_⟩
      intro r hr
      rcases List.mem_append.mp hr with old | new
      · exact placed r old
      · rw [List.mem_singleton.mp new]
        exact ⟨released p directory (by simp), [], rfl, Nat.zero_le k⟩
    | turn i m =>
      obtain ⟨r, t, hi, ht, rfl⟩ := Pool.step_turn step
      have mine := placed r (List.mem_of_getElem? hi)
      obtain ⟨alone, l, le, seen', mine'⟩ := r.turn_seen names seen mine ht
      refine ⟨l, seen', ?_⟩
      intro r' hr'
      rw [alone, List.append_nil] at hr'
      rcases List.mem_or_eq_of_mem_set hr' with old | rfl
      · exact (placed r' old).mono le
      · exact mine'

end

/-- At every moment of every run the database has seen a first part of the migrations, in order and
each of them once, and records just these; it never goes back; and a deploy that is done has left
none of its own out. -/
theorem migrations_go_forward {σ : Type*} {effect : Text → σ → Option σ} {schema : σ}
    {all : List MigrationFile} {log : List (Deploys σ × Act (List MigrationFile) MigrateMove)}
    {p : Deploys σ} (names : (all.map (·.name)).Nodup) (run : MigrationRun effect schema log p)
    (released : Released all log) :
    (∀ s ∈ moments log p, ∃ k, s.store.applied.getD [] = (all.take k).map (·.row) ∧
      appliedTo effect schema (all.take k) = some s.store.schema ∧
      ∀ r ∈ s.calls, r.phase = .done → r.files <+: all.take k) ∧
    (moments log p).Pairwise fun s t =>
      s.store.applied.getD [] <+: t.store.applied.getD [] := by
  constructor
  · intro s hs
    obtain ⟨log₁, log₂, rfl, earlier⟩ := run.moment hs
    have before : Released all log₁ := fun s directory h =>
      released s directory (List.mem_append_left _ h)
    obtain ⟨k, seen, placed⟩ := MigrationRun.seen names earlier before
    refine ⟨k, seen.rows, seen.schema, ?_⟩
    intro r hr finished
    obtain ⟨passed, split, bound⟩ := (placed r hr).progress
    have whole : r.files = passed := by
      rw [finished] at split
      rw [split]
      exact List.append_nil passed
    apply List.prefix_take_iff.mpr
    exact ⟨(placed r hr).release, by rw [whole]; exact bound⟩
  · apply (run.pairwise_moments (R := fun s t =>
      s.store.applied.getD [] <+: t.store.applied.getD []) ?_ ?_).mpr
    · intro e _ v step
      exact step_rows step
    · exact fun _ => List.prefix_rfl
    · exact fun _ _ _ => List.IsPrefix.trans

namespace MigrationScript

def first : MigrationFile := ⟨text "0001_init.sql", text "CREATE TABLE apps"⟩

def second : MigrationFile := ⟨text "0002_webhooks.sql", text "CREATE TABLE events"⟩

/-- A table is created once. -/
def create (body : Text) (tables : List Text) : Option (List Text) :=
  if tables.any (· = body) then none else some (tables ++ [body])

/-- Two deploys of one release find that the first migration is missing. The one that loses the race
fails. -/
def acts : List (Act (List MigrationFile) MigrateMove) :=
  [.arrive [second, ⟨text "README.md", []⟩, first], .arrive [first, second],
    .turn 0 .statement, .turn 1 .statement, .turn 0 .statement, .turn 1 .statement,
    .turn 0 .statement, .turn 1 .statement, .turn 0 .statement, .turn 0 .statement]

def races (log : List (Deploys (List Text) × Act (List MigrationFile) MigrateMove))
    (p : Deploys (List Text)) : Bool :=
  p.calls.map (·.phase) = [.done, .failed] ∧ log.all fun e =>
    match e.2 with
    | .arrive directory => (migrationFiles directory).isPrefixOf [first, second]
    | _ => true

theorem raced : ∃ log p, MigrationRun create [] log p ∧ races log p = true :=
  @run_of_exec_any _ _ _ acts _ _ _ (by decide +kernel)

end MigrationScript

theorem migrations_go_forward_script : ∃ log p, MigrationRun MigrationScript.create [] log p ∧
    p.calls.map (·.phase) = [.done, .failed] ∧
    ∃ k, p.store.applied.getD [] =
      ([MigrationScript.first, MigrationScript.second].take k).map (·.row) := by
  obtain ⟨log, p, run, raced⟩ := MigrationScript.raced
  obtain ⟨phases, directories⟩ := of_decide_eq_true raced
  have names : ([MigrationScript.first, MigrationScript.second].map (·.name)).Nodup := by decide
  obtain ⟨seen, _⟩ := migrations_go_forward names run (by
      intro s directory h
      exact List.isPrefixOf_iff_prefix.mp (List.all_eq_true.mp directories _ h))
  obtain ⟨k, rows, _⟩ := seen p (by simp [moments])
  exact ⟨log, p, run, phases, k, rows⟩

end Syrotp
