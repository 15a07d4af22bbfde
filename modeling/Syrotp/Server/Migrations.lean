import Syrotp.Misc.Digest
import Syrotp.Misc.Pool
import Syrotp.Misc.Table
import Mathlib.Data.List.Sort
import Mathlib.Data.Nat.Digits.Defs

/-!
# Migrations

`db/migrate.ts`. What the body of a migration does to the schema is not modelled: it is an effect
that may fail. The transaction of a migration is one step, at its commit. Several deploys may run
at a time, each with the directory of its release, and any of them may break off.
-/

namespace Syrotp

/-- A file of the directory, and what `readFile` gives for it. -/
structure MigrationFile where
  name : Text
  body : Text
  deriving DecidableEq, Repr

/-- A row of `_syrotp_migrations`. -/
structure MigrationRow where
  name : Text
  checksum : Text
  deriving DecidableEq, Repr

/-- The schema of the database, and the table if it is there. -/
structure MigrationDb (σ : Type*) where
  schema : σ
  applied : Option (List MigrationRow)
  deriving DecidableEq

/-- `n.toString(16)`. -/
def Text.radix16 (n : Nat) : Text :=
  if n = 0 then [48] else (Nat.digits 16 n).reverse.map Syrotp.hexDigit

/-- A turn of the loop in `simpleHash`. -/
def fnvStep (h : UInt32) (c : UInt16) : UInt32 := (h ^^^ c.toUInt32) * 0x01000193

/-- `simpleHash`. -/
def simpleHash (s : Text) : Text := Text.radix16 (s.foldl fnvStep 0x811c9dc5).toNat

example : simpleHash (text "a") = text "e40c292c" := by decide +kernel

def MigrationFile.row (f : MigrationFile) : MigrationRow := ⟨f.name, simpleHash f.body⟩

/-- The files that the loop of `main` goes through. -/
def migrationFiles (directory : List MigrationFile) : List MigrationFile :=
  (directory.filter fun f => (text ".sql").isSuffixOf f.name).insertionSort
    fun f g => f.name ≤ g.name

/-- The next statement of `main`. -/
inductive MigratePhase where
  | createTable
  | select (file : MigrationFile) (rest : List MigrationFile)
  | begin (file : MigrationFile) (rest : List MigrationFile)
  | done
  /-- It exits with 1. -/
  | failed
  deriving DecidableEq, Repr

/-- `main` at the head of its loop. -/
def migrateLoop : List MigrationFile → MigratePhase
  | [] => .done
  | file :: rest => .select file rest

section

variable {σ : Type*}

/-- A statement of `main`, and what it does up to the next one. -/
def migrate (effect : Text → σ → Option σ) (files : List MigrationFile) (db : MigrationDb σ) :
    MigratePhase → Option (MigratePhase × MigrationDb σ)
  | .createTable => some (migrateLoop files, { db with applied := some (db.applied.getD []) })
  | .select file rest =>
    match db.applied with
    | none => some (.failed, db)
    | some rows =>
      if hasKey (·.name) file.name rows then some (migrateLoop rest, db)
      else some (.begin file rest, db)
  | .begin file rest =>
    match db.applied, effect file.body db.schema with
    | some rows, some schema =>
      if hasKey (·.name) file.name rows then some (.failed, db)
      else some (migrateLoop rest, ⟨schema, some (rows ++ [file.row])⟩)
    | _, _ => some (.failed, db)
  | .done => none
  | .failed => none

/-! ## Many deploys -/

/-- A process that runs `main`. -/
structure Migrator where
  files : List MigrationFile
  phase : MigratePhase
  deriving DecidableEq, Repr

/-- How a statement goes: as it should; not at all, and the process breaks off; or it takes effect
and the process breaks off before it has the answer. -/
inductive MigrateMove where
  | statement
  | error
  | lost
  deriving DecidableEq, Repr

def MigratePhase.running : MigratePhase → Bool
  | .done | .failed => false
  | _ => true

def Migrator.turn (effect : Text → σ → Option σ) (db : MigrationDb σ) (r : Migrator) :
    MigrateMove → Option (Turn (MigrationDb σ) Migrator)
  | .statement => (migrate effect r.files db r.phase).map fun s => ⟨s.2, { r with phase := s.1 }, []⟩
  | .error => if r.phase.running then some ⟨db, { r with phase := .failed }, []⟩ else none
  | .lost => (migrate effect r.files db r.phase).map fun s => ⟨s.2, { r with phase := .failed }, []⟩

def migrations (effect : Text → σ → Option σ) :
    Program (MigrationDb σ) Migrator (List MigrationFile) MigrateMove where
  accept _ directory := some ⟨migrationFiles directory, .createTable⟩
  turn db _ r m := r.turn effect db m

abbrev Deploys (σ : Type*) := Pool (MigrationDb σ) Migrator

/-- A run from a database that has seen no migration. -/
abbrev MigrationRun (effect : Text → σ → Option σ) (schema : σ) :=
  Run (Pool.step (migrations effect)) (⟨⟨schema, none⟩, []⟩ : Deploys σ)

end

end Syrotp
