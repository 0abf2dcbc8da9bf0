import Mathlib.Data.List.Sort

/-! The migrations of `many-migration`: a migration's type, status and metadata, the height
guards of `Migration::initialize`, `update` and `hotfix`, and what a migration runs over the
heights at which a chain commits. -/
namespace ManyRs.Migrations

inductive Status
  | enabled
  | disabled
  deriving DecidableEq, Repr

/-- The metadata a config gives a migration. Its `extra` map is read by no modelled
function and is left out. -/
structure Metadata where
  blockHeight : UInt64
  issue : Option String
  deriving DecidableEq, Repr

/-- `FnPtr<T, E>`: a transformer of the storage through `&mut T`. It returns the storage as it
left it, also when it fails after writing part of its effect. -/
abbrev FnPtr (T E : Type) := T → T × Except E Unit

/-- `FnByte`: the rewrite of a hotfix. -/
abbrev FnByte := List UInt8 → Option (List UInt8)

inductive MigrationType (T E : Type)
  | regular (initializeFn updateFn : FnPtr T E)
  | hotfix (hotfixFn : FnByte)

structure InnerMigration (T E : Type) where
  type : MigrationType T E
  name : String
  description : String

structure Migration (T E : Type) where
  migration : InnerMigration T E
  metadata : Metadata
  status : Status

variable {T E : Type}

namespace InnerMigration

/-- Runs the initialize function of a regular migration; a hotfix is skipped. -/
def initializeStorage (m : InnerMigration T E) (storage : T) : T × Except E Unit :=
  match m.type with
  | .regular initializeFn _ => initializeFn storage
  | .hotfix _ => (storage, .ok ())

/-- Runs the update function of a regular migration; a hotfix is skipped. -/
def update (m : InnerMigration T E) (storage : T) : T × Except E Unit :=
  match m.type with
  | .regular _ updateFn => updateFn storage
  | .hotfix _ => (storage, .ok ())

/-- Runs the rewrite of a hotfix; a regular migration is skipped. -/
def hotfix (m : InnerMigration T E) (b : List UInt8) : Option (List UInt8) :=
  match m.type with
  | .hotfix hotfixFn => hotfixFn b
  | .regular _ _ => none

end InnerMigration

namespace Migration

/-- "This function gets executed when the storage block height == the migration block
height". -/
def initializeAt (m : Migration T E) (storage : T) (h : UInt64) : T × Except E Unit :=
  if m.status = .enabled ∧ m.metadata.blockHeight = h then m.migration.initializeStorage storage
  else (storage, .ok ())

/-- "This function gets executed when the storage block height >= the migration block
height"; the guard compares `block_height >= h`. -/
def update (m : Migration T E) (storage : T) (h : UInt64) : T × Except E Unit :=
  if m.status = .enabled ∧ m.metadata.blockHeight ≥ h then m.migration.update storage
  else (storage, .ok ())

/-- "This function gets executed when the storage block height == the migration block
height". -/
def hotfix (m : Migration T E) (b : List UInt8) (h : UInt64) : Option (List UInt8) :=
  if m.status = .enabled ∧ m.metadata.blockHeight = h then m.migration.hotfix b else none

/-- Modelled from the spec: the engine at one commit calls `initialize` and then `update`
at the height the storage will act at, and stops at the first error. -/
def atHeight (m : Migration T E) (storage : T) (h : UInt64) : T × Except E Unit :=
  match m.initializeAt storage h with
  | (s, .ok ()) => m.update s h
  | r => r

/-- The engine over the heights of successive commits, stopping at the first error. -/
def run (m : Migration T E) : T → List UInt64 → T × Except E Unit
  | s, [] => (s, .ok ())
  | s, h :: hs =>
    match m.atHeight s h with
    | (s', .ok ()) => m.run s' hs
    | r => r

/-- The spec's words for `update`: it runs at every height `h ≥ block_height`. -/
def specUpdate (m : Migration T E) (storage : T) (h : UInt64) : T × Except E Unit :=
  if m.status = .enabled ∧ m.metadata.blockHeight ≤ h then m.migration.update storage
  else (storage, .ok ())

/-- The engine as the spec describes it, with `specUpdate` in place of `update`. -/
def specRun (m : Migration T E) : T → List UInt64 → T × Except E Unit
  | s, [] => (s, .ok ())
  | s, h :: hs =>
    match m.initializeAt s h with
    | (s', .ok ()) =>
      match m.specUpdate s' h with
      | (s'', .ok ()) => m.specRun s'' hs
      | r => r
    | r => r

/-- `Migration::disable`. -/
def disable (m : Migration T E) : Migration T E := { m with status := .disabled }

/-- `Migration::enable`. -/
def enable (m : Migration T E) : Migration T E := { m with status := .enabled }

/-- `Migration::is_enabled`. -/
def isEnabled (m : Migration T E) : Bool := m.status = .enabled

/-- Above its block height a migration is never updated, whatever its status and type. -/
theorem update_of_lt {m : Migration T E} {h : UInt64} (hlt : m.metadata.blockHeight < h)
    (storage : T) : m.update storage h = (storage, .ok ()) := by
  have : ¬ h ≤ m.metadata.blockHeight := UInt64.not_le.mpr hlt
  simp [update, this]

/-- A regular, enabled migration at height 1 that counts its initializations and its
updates. -/
def counting : Migration (Nat × Nat) String where
  migration :=
    { type := .regular (fun s => ((s.1 + 1, s.2), .ok ())) (fun s => ((s.1, s.2 + 1), .ok ()))
      name := "counting"
      description := "counts its runs" }
  metadata := ⟨1, none⟩
  status := .enabled

/-- Over the commits at heights 0 to 3, the code updates at heights 0 and 1 (where
`block_height >= h`), while the spec's engine updates at 1, 2 and 3. -/
theorem update_runs_below_block_height :
    counting.run (0, 0) [0, 1, 2, 3] = ((1, 2), .ok ()) ∧
      counting.specRun (0, 0) [0, 1, 2, 3] = ((1, 3), .ok ()) :=
  ⟨rfl, rfl⟩

end Migration

end ManyRs.Migrations
