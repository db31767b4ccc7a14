import Marathon.Storage.StorageVersions

/-!
# Migrating the storage

`Migration.migrateStorage` over a store in ZooKeeper, with any migration steps. A step works
on the data of the repositories, and can fail, be cancelled or throw.
-/

namespace Marathon.Storage

/-- What a step or the store can fail with. -/
inductive Throwable
  | migrationCancelled (message : String)
  | migrationFailed (message : String)
  | nonFatal (message : String)
  | fatal (message : String)
deriving DecidableEq

def Throwable.getMessage : Throwable → String
  | migrationCancelled message | migrationFailed message | nonFatal message | fatal message =>
    message

/-- The store: its version, the node `/migration-in-progress` and the data of the
repositories. `applied` are the steps that have been started: it is not in the source. -/
structure World (δ : Type) where
  storageVersion : Option StorageVersion
  migrationInProgress : Bool
  data : δ
  applied : List StorageVersion

/-- How a step ends: a factory can throw before there is a future. -/
inductive StepResult (δ : Type)
  | done (data : δ)
  | fails (ex : Throwable) (data : δ)
  | throws (ex : Throwable) (data : δ)

structure MigrationAction (δ : Type) where
  version : StorageVersion
  change : δ → StepResult δ

/-- The calls of a migration that can fail for reasons of their own. -/
inductive Call
  | storageVersion
  | setStorageVersion
  | startMigration
  | endMigration
  | backup
deriving DecidableEq

/-- The target version is only defined when there is a step. -/
structure Migration (δ : Type) where
  steps : List (MigrationAction δ)
  nonempty : steps ≠ []
  backupLocation : Option String
  outage : Call → Option Throwable

/-- A future that changes the store. -/
abbrev Run (δ : Type) := EStateM Throwable (World δ)

namespace Run

variable {δ α : Type}

/-- `recover` with a function that throws again. -/
def recover (run : Run δ α) (f : Throwable → Throwable) : Run δ α := fun w =>
  match run w with
  | .ok a w' => .ok a w'
  | .error ex w' => .error (f ex) w'

def asTry (run : Run δ α) : Run δ (Except Throwable α) := fun w =>
  match run w with
  | .ok a w' => .ok (.ok a) w'
  | .error ex w' => .ok (.error ex) w'

/-- The store a future leaves behind, and whether it has succeeded. -/
def world : EStateM.Result Throwable (World δ) α → World δ
  | .ok _ w => w
  | .error _ w => w

end Run

namespace Migration

variable {δ : Type} (m : Migration δ)

/-! ## The store -/

/-- The call goes through, or fails for a reason of its own. -/
def attempt (call : Call) : Run δ Unit :=
  match m.outage call with
  | none => pure ()
  | some ex => throw ex

def getCurrentVersion : Run δ (Option StorageVersion) := do
  m.attempt .storageVersion
  return (← get).storageVersion

/-- The store writes its own format, whatever that of the version is. -/
def setStorageVersion (version : StorageVersion) : Run δ Unit := do
  m.attempt .setStorageVersion
  modify fun w => { w with storageVersion := some { version with format := .persistenceStore } }

/-- A node that exists already is warned about only. -/
def startMigration : Run δ Unit := do
  m.attempt .startMigration
  modify fun w => { w with migrationInProgress := true }

def endMigration : Run δ Unit := do
  m.attempt .endMigration
  if (← get).migrationInProgress then modify fun w => { w with migrationInProgress := false }
  else throw (.nonFatal
    "Migration has not been started; /migration-in-progress node does not exist")

/-! ## The steps -/

def minSupportedStorageVersion : StorageVersion := StorageVersions 1 6 0

def targetVersion : StorageVersion :=
  (m.steps.map MigrationAction.version).max (by simpa using m.nonempty)

/-- What a failed step is reported as. -/
def whileMigrating (version : StorageVersion) : Throwable → Throwable
  | .migrationCancelled message => .migrationCancelled message
  | .fatal message => .fatal message
  | _ => .migrationFailed ("while migrating storage to " ++ version.text)

/-- One step is made, with the results of those before it. -/
def applyMigrationStep (results : List StorageVersion) (action : MigrationAction δ) :
    Run δ (List StorageVersion) := fun w =>
  let started := { w with applied := w.applied ++ [action.version] }
  match action.change w.data with
  | .done data => .ok (results ++ [action.version]) { started with data := data }
  | .fails ex data => .error (whileMigrating action.version ex) { started with data := data }
  | .throws ex data => .error ex { started with data := data }

/-- The steps for the versions after the stored one, by version. -/
def due (version : StorageVersion) : List (MigrationAction δ) :=
  (m.steps.filter fun action => version < action.version).mergeSort
    fun action action' => action.version ≤ action'.version

def applyMigrationSteps (version : StorageVersion) : Run δ (List StorageVersion) :=
  (m.due version).foldl
    (fun resultsFuture action => do
      let results ← resultsFuture
      applyMigrationStep results action)
    (pure [])

/-! ## The migration -/

def storeCurrentVersion : Run δ Unit := m.setStorageVersion m.targetVersion

def runMigrations (version : StorageVersion) (backupCreated : Bool) :
    Run δ (List StorageVersion) := do
  if !backupCreated && m.backupLocation.isSome then
    m.attempt .backup
  let result ← m.applyMigrationSteps version
  m.storeCurrentVersion
  return result

/-- What a failed migration is reported as. -/
def migrationFailed : Throwable → Throwable
  | .migrationCancelled message => .migrationCancelled message
  | .migrationFailed message => .migrationFailed message
  | .fatal message => .fatal message
  | .nonFatal message => .migrationFailed ("Migration Failed: " ++ message)

/-- The migration with its marker, from a version that is not up to date. -/
def markedMigrations (version : StorageVersion) (backupCreated : Bool) :
    Run δ (List StorageVersion) := do
  m.startMigration
  match ← Run.asTry (m.runMigrations version backupCreated) with
  | .ok result => do
    m.endMigration
    return result
  | .error (.migrationCancelled message) => do
    m.endMigration
    throw (.migrationCancelled message)
  | .error ex => throw ex

def migrateFrom (backupCreated : Bool) : Option StorageVersion → Run δ (List StorageVersion)
  | some version =>
    if version < minSupportedStorageVersion then
      throw (.migrationFailed ("Migration from versions < " ++ minSupportedStorageVersion.str ++
        " are not supported. Your version: " ++ version.str))
    else if m.targetVersion < version then
      throw (.migrationFailed ("Migration from " ++ version.str ++
        " is not supported as it is newer than " ++ m.targetVersion.str ++ "."))
    else if version < m.targetVersion then m.markedMigrations version backupCreated
    -- nothing is less: the versions are equal
    else return []
  | none => do
    m.startMigration
    m.storeCurrentVersion
    m.endMigration
    return []

def migrateStorage (backupCreated : Bool) : Run δ (List StorageVersion) :=
  Run.recover
    (do
      let currentVersion ← m.getCurrentVersion
      m.migrateFrom backupCreated currentVersion)
    migrationFailed

end Migration

end Marathon.Storage
