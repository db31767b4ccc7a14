import Mathlib.Data.List.ReduceOption
import Marathon.Storage.ScanProposals

/-!
# Which objects a scan keeps

A scan of a store that nobody writes to, and the objects that it must keep: those of
the current root, of the roots of the stored plans and of the root versions that stay.
It keeps them all exactly when every batch of roots spares each of them.
-/

namespace Marathon.Storage.GcActor

open Lib

def Kind.references (root : StoredGroup) : Kind → List (AbsolutePathId × Timestamp)
  | app => root.appReferences
  | pod => root.podReferences

/-- The content of the repositories. -/
structure Store where
  rootVersions : Dict Timestamp StoredGroup
  currentRoot : RootGroup
  plans : List StoredPlan
  runSpecs : Kind → SetMap AbsolutePathId Timestamp

variable {version : Timestamp} {toDelete : Finset Timestamp}

namespace Store

variable (config : Config) (store : Store)

/-- What a scan reads when all its reads succeed and nothing is written meanwhile. -/
def reads : Reads where
  rootVersions := some store.rootVersions.keys.toFinset
  root := some store.currentRoot
  lazyAll := some store.plans
  lazyRootVersion := fun _ version => some (store.rootVersions.lookup version)
  ids := fun kind => some (store.runSpecs kind).keys.toFinset
  versions := fun kind _ id => some ((store.runSpecs kind).get id)

/-- The original and target roots of the stored plans, as far as they are stored. -/
def planRoots : List StoredGroup :=
  (planVersions store.plans).filterMap store.rootVersions.lookup

/-- The object is referenced by the current root, by a root of a stored plan or by a root
version that is not deleted. -/
def InUse (deleted : Timestamp → Prop) (kind : Kind) (id : AbsolutePathId) (v : Timestamp) : Prop :=
  (id, v) ∈ kind.transitive store.currentRoot ∨
    (∃ root ∈ store.planRoots, (id, v) ∈ kind.references root) ∨
    ∃ version root, store.rootVersions.lookup version = some root ∧ ¬deleted version ∧
      (id, v) ∈ kind.references root

/-- Nothing that the scan proposes is in use when its root versions are deleted. -/
def KeepsReferenced : Prop :=
  ∀ kind id v, store.InUse (· ∈ (scan config store.reads).rootVersionsToDelete) kind id v →
    id ∉ (scan config store.reads).idsToDelete kind ∧
      v ∉ ((scan config store.reads).versionsToDelete kind).get id

/-! ## When nothing is lost -/

/-- The root versions that nobody needs. -/
def candidates : Finset Timestamp :=
  deletionCandidates store.rootVersions.keys.toFinset store.currentRoot store.plans

/-- A root version that nobody needs, and fewer older ones than there are too many. -/
def Overdue (version : Timestamp) : Prop :=
  version ∈ store.candidates ∧
    (store.candidates.filter (· < version)).card <
      (store.rootVersions.keys.toFinset.card - config.maxVersions).toNat

/-- The batch of roots spares the object of the store. -/
def Spares (roots : List StoredGroup) (kind : Kind) (id : AbsolutePathId) (v : Timestamp) : Prop :=
  GcActor.Spares config.maxVersions kind store.currentRoot roots
    (store.runSpecs kind).keys.toFinset ((store.runSpecs kind).get id) id v

/-- There is nothing to scan for, or every batch of the plans' roots spares every object in
use. -/
def EverythingSpared : Prop :=
  config.scanBatchSize ≤ 0 ∨ (∀ version, ¬store.Overdue config version) ∨
    ∀ kind id v, store.InUse (store.Overdue config) kind id v →
      ∀ roots ∈ grouped config.scanBatchSize.toNat store.planRoots,
        store.Spares config roots kind id v

variable {config store}

theorem mem_rootsToDelete :
    version ∈ rootsToDelete config.maxVersions store.rootVersions.keys.toFinset store.currentRoot
      store.plans ↔ store.Overdue config version :=
  mem_takeLeast

/-! ### The scan of the store -/

theorem rootsInUse_reads : rootsInUse store.reads store.plans = some store.planRoots := by
  have hread : (planVersions store.plans).zipIdx.mapM (fun v =>
      store.reads.lazyRootVersion v.2 v.1) =
        some ((planVersions store.plans).map store.rootVersions.lookup) := by
    calc (planVersions store.plans).zipIdx.mapM (fun v => store.reads.lazyRootVersion v.2 v.1)
        = some ((planVersions store.plans).zipIdx.map
            fun v => store.rootVersions.lookup v.1) := List.mapM_pure
      _ = some (((planVersions store.plans).zipIdx.map Prod.fst).map
            store.rootVersions.lookup) := by rw [List.map_map]; rfl
      _ = some ((planVersions store.plans).map store.rootVersions.lookup) := by
          rw [List.zipIdx_map_fst]
  rw [rootsInUse, hread, Option.map_some, List.reduceOption, List.filterMap_map]
  rfl

theorem exists_scanBatch_reads (config : Config) (store : Store) (toDelete : Finset Timestamp)
    (batch : ℕ) (roots : List StoredGroup) :
    ∃ done, scanBatch config store.reads toDelete store.currentRoot batch roots = some done := by
  have hexceeding : ∀ kind (used : List AbsolutePathId), ∃ tooMany,
      exceedingMaxVersions config.maxVersions (store.reads.versions kind batch) used =
        some tooMany := by
    intro kind used
    have hread : used.mapM (fun id => (store.reads.versions kind batch id).map fun found =>
        (id, found)) = some (used.map fun id => (id, (store.runSpecs kind).get id)) :=
      List.mapM_pure
    exact ⟨_, by rw [exceedingMaxVersions, hread]; rfl⟩
  obtain ⟨apps, happs⟩ := hexceeding .app (appsInUse store.currentRoot roots).keys
  obtain ⟨pods, hpods⟩ := hexceeding .pod (podsInUse store.currentRoot roots).keys
  have hids : ∀ kind, store.reads.ids kind = some (store.runSpecs kind).keys.toFinset :=
    fun _ => rfl
  have hbatch : (scanBatch config store.reads toDelete store.currentRoot batch roots).isSome := by
    simp only [scanBatch, hids, happs, hpods, bind, Option.bind_some]
    rfl
  exact Option.isSome_iff_exists.mp hbatch

theorem reaches_reads (hsize : 0 < config.scanBatchSize) (hoverdue : store.Overdue config version) :
    Reaches config store.reads store.rootVersions.keys.toFinset store.currentRoot store.plans
      store.planRoots where
  readRootVersions := rfl
  readRoot := rfl
  readPlans := rfl
  overdue := Finset.ne_empty_of_mem (mem_rootsToDelete.mpr hoverdue)
  batchSize := hsize
  readRoots := rootsInUse_reads

theorem mem_batchScans_reads {done : ScanDone} :
    done ∈ batchScans config store.reads toDelete store.currentRoot store.planRoots ↔
      ∃ batch roots, (grouped config.scanBatchSize.toNat store.planRoots)[batch]? = some roots ∧
        scanBatch config store.reads toDelete store.currentRoot batch roots = some done := by
  simp only [batchScans, List.mem_map, Prod.exists, List.mk_mem_zipIdx_iff_getElem?]
  constructor
  · rintro ⟨roots, batch, hbatch, rfl⟩
    obtain ⟨done, hdone⟩ := exists_scanBatch_reads config store toDelete batch roots
    exact ⟨batch, roots, hbatch, by rw [hdone, Option.getD_some]⟩
  · rintro ⟨batch, roots, hbatch, hdone⟩
    exact ⟨roots, batch, hbatch, by rw [hdone, Option.getD_some]⟩

variable {kind : Kind} {id : AbsolutePathId} {v : Timestamp}

theorem exists_mem_batchScans_iff {P : ScanDone → Prop}
    {Q : List StoredGroup → Prop}
    (h : ∀ batch roots done,
      scanBatch config store.reads toDelete store.currentRoot batch roots = some done →
        (P done ↔ Q roots)) :
    (∃ done ∈ batchScans config store.reads toDelete store.currentRoot store.planRoots, P done) ↔
      ∃ roots ∈ grouped config.scanBatchSize.toNat store.planRoots, Q roots := by
  constructor
  · rintro ⟨done, hdone, hP⟩
    obtain ⟨batch, roots, hbatch, hscan⟩ := mem_batchScans_reads.mp hdone
    exact ⟨roots, List.mem_of_getElem? hbatch, (h batch roots done hscan).mp hP⟩
  · rintro ⟨roots, hroots, hQ⟩
    obtain ⟨batch, hbatch⟩ := List.getElem?_of_mem hroots
    obtain ⟨done, hscan⟩ := exists_scanBatch_reads config store toDelete batch roots
    exact ⟨done, mem_batchScans_reads.mpr ⟨batch, roots, hbatch, hscan⟩,
      (h batch roots done hscan).mpr hQ⟩

theorem mem_idsToDelete (hsize : 0 < config.scanBatchSize)
    (hoverdue : store.Overdue config version) :
    id ∈ (scan config store.reads).idsToDelete kind ↔
      ∃ roots ∈ grouped config.scanBatchSize.toNat store.planRoots,
        ProposesId kind store.currentRoot roots (store.runSpecs kind).keys.toFinset id := by
  rw [scan_of_reaches (reaches_reads hsize hoverdue), mem_idsToDelete_foldl_append,
    or_iff_right notMem_idsToDelete_empty]
  apply exists_mem_batchScans_iff
  intro batch roots done hdone
  rw [((scanBatch_proposals hdone).2 kind).1 id]
  exact ⟨fun ⟨_, hread, hprop⟩ => Option.some.inj hread ▸ hprop, fun hprop => ⟨_, rfl, hprop⟩⟩

theorem mem_versionsToDelete (hsize : 0 < config.scanBatchSize)
    (hoverdue : store.Overdue config version) :
    v ∈ ((scan config store.reads).versionsToDelete kind).get id ↔
      ∃ roots ∈ grouped config.scanBatchSize.toNat store.planRoots,
        ProposesVersion config.maxVersions kind store.currentRoot roots
          ((store.runSpecs kind).get id) id v := by
  rw [scan_of_reaches (reaches_reads hsize hoverdue), mem_versionsToDelete_foldl_append,
    or_iff_right notMem_versionsToDelete_empty]
  apply exists_mem_batchScans_iff
  intro batch roots done hdone
  rw [((scanBatch_proposals hdone).2 kind).2 id v]
  exact ⟨fun ⟨_, hread, hprop⟩ => Option.some.inj hread ▸ hprop, fun hprop => ⟨_, rfl, hprop⟩⟩

theorem kept_iff_spared (hsize : 0 < config.scanBatchSize)
    (hoverdue : store.Overdue config version) :
    (id ∉ (scan config store.reads).idsToDelete kind ∧
        v ∉ ((scan config store.reads).versionsToDelete kind).get id) ↔
      ∀ roots ∈ grouped config.scanBatchSize.toNat store.planRoots,
        store.Spares config roots kind id v := by
  simp only [Spares, spares_iff, mem_idsToDelete hsize hoverdue,
    mem_versionsToDelete hsize hoverdue, not_exists, not_and, forall_and]

theorem mem_rootVersionsToDelete {deleted : Timestamp} (hsize : 0 < config.scanBatchSize)
    (hoverdue : store.Overdue config deleted)
    (hbatch : grouped config.scanBatchSize.toNat store.planRoots ≠ []) :
    version ∈ (scan config store.reads).rootVersionsToDelete ↔ store.Overdue config version := by
  rw [scan_of_reaches (reaches_reads hsize hoverdue), mem_rootVersionsToDelete_foldl_append,
    or_iff_right notMem_rootVersionsToDelete_empty, ← mem_rootsToDelete]
  obtain ⟨roots, hroots⟩ := List.exists_mem_of_ne_nil _ hbatch
  constructor
  · rintro ⟨done, hdone, hversion⟩
    obtain ⟨batch, roots, _, hscan⟩ := mem_batchScans_reads.mp hdone
    rwa [(scanBatch_proposals hscan).1] at hversion
  · intro hversion
    obtain ⟨batch, hat⟩ := List.getElem?_of_mem hroots
    obtain ⟨done, hscan⟩ := exists_scanBatch_reads config store
      (rootsToDelete config.maxVersions store.rootVersions.keys.toFinset store.currentRoot
        store.plans) batch roots
    refine ⟨done, mem_batchScans_reads.mpr ⟨batch, roots, hat, hscan⟩, ?_⟩
    rwa [(scanBatch_proposals hscan).1]

theorem scan_eq_empty_of_batchSize (hsize : config.scanBatchSize ≤ 0) :
    scan config store.reads = .empty := by
  apply (scan_eq_empty_or_reaches config store.reads).resolve_right
  rintro ⟨_, _, _, _, hreaches⟩
  exact absurd hreaches.batchSize (Int.not_lt.mpr hsize)

theorem scan_eq_empty_of_not_overdue (hoverdue : ∀ version, ¬store.Overdue config version) :
    scan config store.reads = .empty := by
  apply (scan_eq_empty_or_reaches config store.reads).resolve_right
  rintro ⟨_, _, _, _, hreaches⟩
  cases hreaches.readRootVersions
  cases hreaches.readRoot
  cases hreaches.readPlans
  obtain ⟨version, hversion⟩ := Finset.nonempty_iff_ne_empty.mpr hreaches.overdue
  exact hoverdue version (mem_rootsToDelete.mp hversion)

theorem keepsReferenced_of_scan_eq_empty (h : scan config store.reads = .empty) :
    store.KeepsReferenced config := by
  intro kind id v _
  rw [h]
  exact ⟨notMem_idsToDelete_empty, notMem_versionsToDelete_empty⟩

/-- **The scan keeps every object that is referenced exactly when every batch of roots spares
every object in use.** -/
theorem keepsReferenced_iff (config : Config) (store : Store) :
    store.KeepsReferenced config ↔ store.EverythingSpared config := by
  by_cases hsize : config.scanBatchSize ≤ 0
  · have hempty : scan config store.reads = .empty := scan_eq_empty_of_batchSize hsize
    exact iff_of_true (keepsReferenced_of_scan_eq_empty hempty) (.inl hsize)
  by_cases hoverdue : ∀ version, ¬store.Overdue config version
  · have hempty := scan_eq_empty_of_not_overdue hoverdue
    exact iff_of_true (keepsReferenced_of_scan_eq_empty hempty) (.inr (.inl hoverdue))
  obtain ⟨version, hversion⟩ := not_forall_not.mp hoverdue
  have hpos : 0 < config.scanBatchSize := Int.not_le.mp hsize
  have hcond : store.EverythingSpared config ↔
      ∀ kind id v, store.InUse (store.Overdue config) kind id v →
        ∀ roots ∈ grouped config.scanBatchSize.toNat store.planRoots,
          store.Spares config roots kind id v := by
    rw [EverythingSpared, or_iff_right hsize, or_iff_right hoverdue]
  rw [hcond]
  by_cases hbatch : grouped config.scanBatchSize.toNat store.planRoots = []
  · have hkept : ∀ kind id v, id ∉ (scan config store.reads).idsToDelete kind ∧
        v ∉ ((scan config store.reads).versionsToDelete kind).get id := by
      intro kind id v
      rw [kept_iff_spared hpos hversion, hbatch]
      exact fun roots hroots => absurd hroots List.not_mem_nil
    apply iff_of_true
    · exact fun kind id v _ => hkept kind id v
    · exact fun kind id v _ => (kept_iff_spared hpos hversion).mp (hkept kind id v)
  · have hdeleted : ∀ version, version ∈ (scan config store.reads).rootVersionsToDelete ↔
        store.Overdue config version := fun _ => mem_rootVersionsToDelete hpos hversion hbatch
    simp only [KeepsReferenced, hdeleted, kept_iff_spared hpos hversion]

/-! ### A root of a plan with an app two levels below it -/

/-- A stored group without pods and dependencies. -/
def storedGroup (path : List String) (apps : List (AbsolutePathId × Timestamp))
    (storedGroups : List StoredGroup) (version : Timestamp) : StoredGroup where
  id := ⟨path⟩
  appIds := Dict.insertAll ∅ apps
  podIds := ∅
  storedGroups := storedGroups
  dependencies := ∅
  version := version
  enforceRole := none

/-- The deployment `removal` removes the app `/a/b/x` of the second root; the third root is
already current and the first one is no longer needed. -/
def removalStore : Store where
  rootVersions := Dict.insertAll ∅
    [(⟨1⟩, storedGroup [] [] [] ⟨1⟩),
      (⟨2⟩, storedGroup [] [] [storedGroup ["a"] []
        [storedGroup ["a", "b"] [(⟨["a", "b", "x"]⟩, ⟨2⟩)] [] ⟨2⟩] ⟨2⟩] ⟨2⟩),
      (⟨3⟩, storedGroup [] [] [] ⟨3⟩)]
  currentRoot := Group.empty .root none ⟨3⟩
  plans := [⟨"removal", ⟨2⟩, ⟨3⟩, ⟨3⟩⟩]
  runSpecs := fun kind =>
    match kind with
    | .app => Dict.insertAll ∅ [(⟨["a", "b", "x"]⟩, {⟨2⟩})]
    | .pod => ∅

def twoVersions : Config where
  maxVersions := 2
  scanBatchSize := 32
  cleaningInterval := 0

theorem not_forall_keepsReferenced : ¬∀ config store, KeepsReferenced config store := by
  intro hall
  have hkept := (hall twoVersions removalStore .app ⟨["a", "b", "x"]⟩ ⟨2⟩
    (.inr (.inl (by decide)))).1
  exact hkept (by decide)

end Store

end Marathon.Storage.GcActor
