import Marathon.Storage.Migration

/-!
# What a migration does to the store

The due steps run one after another until one fails; the stored version and the marker
follow from how they ended.
-/

namespace Marathon.Storage

variable {δ : Type}

/-- The steps run in their order, each after the one before it has succeeded, up to the first
that fails: the versions of those that have run, how the last one failed, and the data then. -/
inductive Applies : List (MigrationAction δ) → δ → List StorageVersion → Option Throwable → δ → Prop
  | nil {data : δ} : Applies [] data [] none data
  | done {action : MigrationAction δ} {actions : List (MigrationAction δ)} {data data' data'' : δ}
      {versions : List StorageVersion} {ex : Option Throwable}
      (h : action.change data = .done data') (hrest : Applies actions data' versions ex data'') :
      Applies (action :: actions) data (action.version :: versions) ex data''
  | fails {action : MigrationAction δ} {actions : List (MigrationAction δ)} {data data' : δ}
      {ex : Throwable} (h : action.change data = .fails ex data') :
      Applies (action :: actions) data [action.version]
        (some (Migration.whileMigrating action.version ex)) data'
  | throws {action : MigrationAction δ} {actions : List (MigrationAction δ)} {data data' : δ}
      {ex : Throwable} (h : action.change data = .throws ex data') :
      Applies (action :: actions) data [action.version] (some ex) data'

namespace Applies

variable {actions : List (MigrationAction δ)} {data data' : δ} {versions : List StorageVersion}
  {ex : Option Throwable}

end Applies

variable {ex : Throwable} {f : Throwable → Throwable} {acc : Run δ (List StorageVersion)}
  {w w' : World δ}

namespace Run

variable {α β : Type} {run : Run δ α} {w w' : World δ}

theorem bind_ok {a : α} (h : run w = .ok a w') (f : α → Run δ β) : (run >>= f) w = f a w' := by
  simp only [bind, EStateM.bind, h]

theorem bind_error (h : run w = .error ex w') (f : α → Run δ β) : (run >>= f) w = .error ex w' := by
  simp only [bind, EStateM.bind, h]

theorem asTry_ok {a : α} (h : run w = .ok a w') : asTry run w = .ok (.ok a) w' := by
  rw [asTry, h]

theorem asTry_error (h : run w = .error ex w') : asTry run w = .ok (.error ex) w' := by
  rw [asTry, h]

theorem recover_ok {a : α} (h : run w = .ok a w') : recover run f w = .ok a w' := by
  rw [recover, h]

theorem recover_error (h : run w = .error ex w') : recover run f w = .error (f ex) w' := by
  rw [recover, h]

end Run

namespace Migration

variable {m : Migration δ} {version : StorageVersion}

/-! ## The due steps -/

theorem mem_due {action : MigrationAction δ} :
    action ∈ m.due version ↔ action ∈ m.steps ∧ version < action.version := by
  rw [due, List.mem_mergeSort, List.mem_filter, decide_eq_true_eq]

theorem pairwise_due (hversions : (m.steps.map MigrationAction.version).Nodup) :
    ((m.due version).map MigrationAction.version).Pairwise (· < ·) := by
  have hsorted : (m.due version).Pairwise
      fun action action' => decide (action.version ≤ action'.version) := by
    apply List.pairwise_mergeSort
    · intro a b c hab hbc
      exact decide_eq_true (le_trans (of_decide_eq_true hab) (of_decide_eq_true hbc))
    · intro a b
      simpa using le_total a.version b.version
  have hperm : ((m.due version).map MigrationAction.version).Perm
      ((m.steps.filter fun action => version < action.version).map MigrationAction.version) :=
    (List.mergeSort_perm _ _).map _
  have hnodup : ((m.due version).map MigrationAction.version).Nodup :=
    hperm.nodup_iff.mpr ((List.filter_sublist.map _).nodup hversions)
  have hle : ((m.due version).map MigrationAction.version).Pairwise (· ≤ ·) := by
    rw [List.pairwise_map]
    exact hsorted.imp fun h => of_decide_eq_true h
  exact hle.imp₂ (fun _ _ hle hne => lt_of_le_of_ne hle hne) hnodup

/-! ## Running the steps -/

/-- The fold of `applyMigrationSteps`. -/
def thenStep (resultsFuture : Run δ (List StorageVersion)) (action : MigrationAction δ) :
    Run δ (List StorageVersion) := do
  let results ← resultsFuture
  applyMigrationStep results action

theorem foldl_thenStep_error (h : acc w = .error ex w') (actions : List (MigrationAction δ)) :
    actions.foldl thenStep acc w = .error ex w' := by
  induction actions generalizing acc with
  | nil => exact h
  | cons action actions ih => exact ih (Run.bind_error h _)

theorem foldl_thenStep_ok {results : List StorageVersion} (h : acc w = .ok results w')
    (actions : List (MigrationAction δ)) :
    ∃ versions ex data, Applies actions w'.data versions ex data ∧
      actions.foldl thenStep acc w =
        match ex with
        | none =>
          .ok (results ++ versions) { w' with data := data, applied := w'.applied ++ versions }
        | some ex => .error ex { w' with data := data, applied := w'.applied ++ versions } := by
  induction actions generalizing acc results w' with
  | nil =>
    refine ⟨[], none, w'.data, .nil, ?_⟩
    rw [List.append_nil, List.append_nil]
    exact h
  | cons action actions ih =>
    have hstep : thenStep acc action w = applyMigrationStep results action w' := Run.bind_ok h _
    cases hchange : action.change w'.data with
    | done data =>
      rw [applyMigrationStep, hchange] at hstep
      obtain ⟨versions, ex, data', happlies, hfold⟩ := ih hstep
      refine ⟨action.version :: versions, ex, data', .done hchange happlies, ?_⟩
      rw [List.foldl_cons, hfold]
      simp only [List.append_assoc, List.singleton_append]
    | fails ex data =>
      rw [applyMigrationStep, hchange] at hstep
      exact ⟨[action.version], _, data, .fails hchange, foldl_thenStep_error hstep actions⟩
    | throws ex data =>
      rw [applyMigrationStep, hchange] at hstep
      exact ⟨[action.version], _, data, .throws hchange, foldl_thenStep_error hstep actions⟩

theorem applyMigrationSteps_spec (m : Migration δ) (version : StorageVersion) (w : World δ) :
    ∃ versions ex data, Applies (m.due version) w.data versions ex data ∧
      m.applyMigrationSteps version w =
        match ex with
        | none => .ok versions { w with data := data, applied := w.applied ++ versions }
        | some ex => .error ex { w with data := data, applied := w.applied ++ versions } :=
  foldl_thenStep_ok (w := w) rfl (m.due version)

/-! ## The stored version and the marker -/

theorem format_targetVersion (hmin : minSupportedStorageVersion ≤ version)
    (hlt : version < m.targetVersion) : m.targetVersion.format = .persistenceStore := by
  have hfields := StorageVersion.lt_iff_fields.mp (hmin.trans_lt hlt)
  rw [StorageVersion.fields, StorageVersion.fields, Prod.Lex.toLex_lt_toLex] at hfields
  cases hformat : m.targetVersion.format with
  | persistenceStore => rfl
  | legacy =>
    rw [hformat] at hfields
    rcases hfields with hnumber | ⟨hnumber, _⟩
    · have hnumber : (1 : ℤ) < 0 := hnumber
      omega
    · have hnumber : (1 : ℤ) = 0 := hnumber
      omega

section Answers

variable (hanswers : ∀ call, m.outage call = none)

include hanswers

theorem attempt_of_answers (call : Call) (w : World δ) : m.attempt call w = .ok () w := by
  rw [attempt, hanswers]
  rfl

theorem run_startMigration (w : World δ) :
    m.startMigration w = .ok () { w with migrationInProgress := true } :=
  Run.bind_ok (m.attempt_of_answers hanswers .startMigration w) _

theorem run_endMigration (h : w.migrationInProgress = true) :
    m.endMigration w = .ok () { w with migrationInProgress := false } := by
  have hget : (get : Run δ (World δ)) w = .ok w w := rfl
  rw [endMigration, Run.bind_ok (attempt_of_answers hanswers .endMigration w), Run.bind_ok hget,
    if_pos h]
  rfl

theorem run_storeCurrentVersion (w : World δ) :
    m.storeCurrentVersion w = .ok ()
      { w with storageVersion := some { m.targetVersion with format := .persistenceStore } } :=
  Run.bind_ok (m.attempt_of_answers hanswers .setStorageVersion w) _

theorem run_runMigrations (version : StorageVersion) (backupCreated : Bool) (w : World δ) :
    ∃ versions ex data, Applies (m.due version) w.data versions ex data ∧
      m.runMigrations version backupCreated w =
        match ex with
        | none => .ok versions
            { w with
              storageVersion := some { m.targetVersion with format := .persistenceStore }
              data := data
              applied := w.applied ++ versions }
        | some ex => .error ex { w with data := data, applied := w.applied ++ versions } := by
  obtain ⟨versions, ex, data, happlies, hrun⟩ := applyMigrationSteps_spec m version w
  refine ⟨versions, ex, data, happlies, ?_⟩
  have hrest : m.runMigrations version backupCreated w =
      (do
        let result ← m.applyMigrationSteps version
        m.storeCurrentVersion
        return result : Run δ (List StorageVersion)) w := by
    rw [runMigrations]
    split
    · exact Run.bind_ok (attempt_of_answers hanswers .backup w) _
    · rfl
  rw [hrest]
  cases ex with
  | none =>
    rw [Run.bind_ok hrun, Run.bind_ok (run_storeCurrentVersion hanswers _)]
    rfl
  | some ex => exact Run.bind_error hrun _

theorem run_markedMigrations (version : StorageVersion) (backupCreated : Bool) (w : World δ) :
    ∃ versions ex data, Applies (m.due version) w.data versions ex data ∧
      m.markedMigrations version backupCreated w =
        let after := { w with
          data := data
          applied := w.applied ++ versions }
        match ex with
        | none => .ok versions
            { after with
              storageVersion := some { m.targetVersion with format := .persistenceStore }
              migrationInProgress := false }
        | some (.migrationCancelled message) =>
          .error (.migrationCancelled message) { after with migrationInProgress := false }
        | some ex => .error ex { after with migrationInProgress := true } := by
  obtain ⟨versions, ex, data, happlies, hrun⟩ :=
    run_runMigrations hanswers version backupCreated { w with migrationInProgress := true }
  refine ⟨versions, ex, data, happlies, ?_⟩
  rw [markedMigrations, Run.bind_ok (run_startMigration hanswers w)]
  cases ex with
  | none =>
    rw [Run.bind_ok (Run.asTry_ok hrun)]
    exact Run.bind_ok (run_endMigration hanswers rfl) _
  | some ex =>
    rw [Run.bind_ok (Run.asTry_error hrun)]
    cases ex with
    | migrationCancelled message => exact Run.bind_ok (run_endMigration hanswers rfl) _
    | migrationFailed message => rfl
    | nonFatal message => rfl
    | fatal message => rfl

theorem run_migrateStorage {stored : Option StorageVersion}
    (hw : w.storageVersion = stored) (backupCreated : Bool) :
    m.migrateStorage backupCreated w =
      Run.recover (m.migrateFrom backupCreated stored) migrationFailed w := by
  have hcurrent : m.getCurrentVersion w = .ok stored w := by
    rw [getCurrentVersion, Run.bind_ok (attempt_of_answers hanswers .storageVersion w), ← hw]
    rfl
  have hrun := Run.bind_ok hcurrent (m.migrateFrom backupCreated)
  rw [migrateStorage, Run.recover, hrun]
  rfl

end Answers

/-- **A stored version out of range fails and the target version succeeds, both without a
step or a change of the store. In between exactly the due steps run, in ascending order, each
after the one before it has succeeded, up to the first that fails. The stored version becomes
the target when all have succeeded and else stays; the marker is removed when all have
succeeded or the last one was cancelled.** -/
theorem migrateStorage_spec (m : Migration δ)
    (hversions : (m.steps.map MigrationAction.version).Nodup)
    (hanswers : ∀ call, m.outage call = none) (backupCreated : Bool) (w : World δ)
    (version : StorageVersion) (hw : w.storageVersion = some version) :
    (version < minSupportedStorageVersion ∨ m.targetVersion < version →
      ∃ message, m.migrateStorage backupCreated w = .error (.migrationFailed message) w) ∧
    (minSupportedStorageVersion ≤ version → version = m.targetVersion →
      m.migrateStorage backupCreated w = .ok [] w) ∧
    (minSupportedStorageVersion ≤ version → version < m.targetVersion →
      (∀ action, action ∈ m.due version ↔ action ∈ m.steps ∧ version < action.version) ∧
      ((m.due version).map MigrationAction.version).Pairwise (· < ·) ∧
      ∃ versions ex data, Applies (m.due version) w.data versions ex data ∧
        let after := Run.world (m.migrateStorage backupCreated w)
        after.applied = w.applied ++ versions ∧ after.data = data ∧
        (after.storageVersion = some m.targetVersion ↔ ex = none) ∧
        (ex ≠ none → after.storageVersion = some version) ∧
        (after.migrationInProgress = false ↔
          ex = none ∨ ∃ message, ex = some (.migrationCancelled message))) := by
  have hrun := run_migrateStorage hanswers hw backupCreated
  refine ⟨?_, ?_, ?_⟩
  · intro hrange
    by_cases hmin : version < minSupportedStorageVersion
    · rw [migrateFrom, if_pos hmin] at hrun
      exact ⟨_, hrun⟩
    · have htarget := hrange.resolve_left hmin
      rw [migrateFrom, if_neg hmin, if_pos htarget] at hrun
      exact ⟨_, hrun⟩
  · intro hmin heq
    rw [migrateFrom, if_neg (not_lt.mpr hmin), if_neg (heq ▸ lt_irrefl _),
      if_neg (heq ▸ lt_irrefl _)] at hrun
    exact hrun
  · intro hmin hlt
    rw [migrateFrom, if_neg (not_lt.mpr hmin), if_neg hlt.not_gt, if_pos hlt] at hrun
    refine ⟨fun action => mem_due, pairwise_due hversions, ?_⟩
    obtain ⟨versions, ex, data, happlies, hmarked⟩ :=
      run_markedMigrations hanswers version backupCreated w
    have htarget : { m.targetVersion with format := .persistenceStore } = m.targetVersion := by
      rw [← format_targetVersion hmin hlt]
    have hne : version ≠ m.targetVersion := hlt.ne
    refine ⟨versions, ex, data, happlies, ?_⟩
    cases ex with
    | none =>
      rw [hrun, Run.recover_ok hmarked]
      simp [Run.world, htarget]
    | some ex =>
      cases ex <;>
        · rw [hrun, Run.recover_error hmarked]
          simp [Run.world, hw, hne]

/-! ### A cancelled migration -/

/-- A step to `version` that ends as given and does nothing else. -/
def fakeMigration (version : StorageVersion) (ex : Option Throwable) : MigrationAction Unit where
  version := version
  change := fun _ =>
    match ex with
    | none => .done ()
    | some ex => .fails ex ()

/-- Two steps out of order, of which the later one is cancelled. -/
def cancelled : Migration Unit where
  steps := [fakeMigration (StorageVersions 18 0 0) (some (.migrationCancelled "Migration cancelled")),
    fakeMigration (StorageVersions 17 0 0) none]
  nonempty := List.cons_ne_nil _ _
  backupLocation := none
  outage := fun _ => none

/-- A store with the given version, before any migration. -/
def storedAt (version : StorageVersion) : World Unit where
  storageVersion := some version
  migrationInProgress := false
  data := ()
  applied := []

theorem cancelled_spec :
    ∃ versions ex data,
      Applies (cancelled.due (StorageVersions 1 6 0)) () versions ex data ∧
      (Run.world (cancelled.migrateStorage false (storedAt (StorageVersions 1 6 0)))).applied =
        versions := by
  obtain ⟨_, _, versions, ex, data, happlies, happlied, _⟩ :=
    (migrateStorage_spec cancelled (by decide) (fun _ => rfl) false
      (storedAt (StorageVersions 1 6 0)) (StorageVersions 1 6 0) rfl).2.2 (by decide) (by decide)
  exact ⟨versions, ex, data, happlies, happlied⟩

/-- A version before the oldest supported one is not migrated, whatever steps are due. -/
theorem not_forall_runs_due :
    ¬∀ (m : Migration Unit) (w : World Unit) (version : StorageVersion),
      (m.steps.map MigrationAction.version).Nodup → (∀ call, m.outage call = none) →
      w.storageVersion = some version → ∃ versions ex data,
        Applies (m.due version) w.data versions ex data ∧
          (Run.world (m.migrateStorage false w)).applied = w.applied ++ versions := by
  intro hall
  obtain ⟨versions, ex, data, happlies, happlied⟩ := hall cancelled
    (storedAt (StorageVersions 1 5 0)) (StorageVersions 1 5 0) (by decide) (fun _ => rfl) rfl
  have hrun : (Run.world (cancelled.migrateStorage false (storedAt (StorageVersions 1 5 0)))).applied =
      [] := by
    decide
  rw [hrun] at happlied
  have hnone : versions = [] := happlied.symm
  have hdue : fakeMigration (StorageVersions 17 0 0) none ∈ cancelled.due (StorageVersions 1 5 0) :=
    mem_due.mpr ⟨List.mem_cons_of_mem _ List.mem_cons_self, by decide⟩
  generalize cancelled.due (StorageVersions 1 5 0) = due at happlies hdue
  cases happlies with
  | nil => cases hdue
  | done => cases hnone
  | fails => cases hnone
  | throws => cases hnone

end Migration

end Marathon.Storage
