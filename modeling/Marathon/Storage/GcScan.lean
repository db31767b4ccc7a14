import Mathlib.Data.Fintype.Basic
import Marathon.Lib.Collections
import Marathon.Lib.SetMap
import Marathon.Storage.StoredGroup

/-!
# The scan of the garbage collector

`GcActor.scan` as a function of what its reads return. Apps and pods are scanned in the
same way: what differs is which repository is read and which ids of a group are used.
-/

namespace Marathon.Storage.GcActor

open Lib

structure Config where
  maxVersions : ℤ
  scanBatchSize : ℤ
  cleaningInterval : FiniteDuration

structure ScanDone where
  appsToDelete : Finset AbsolutePathId
  appVersionsToDelete : SetMap AbsolutePathId Timestamp
  podsToDelete : Finset AbsolutePathId
  podVersionsToDelete : SetMap AbsolutePathId Timestamp
  rootVersionsToDelete : Finset Timestamp

/-- The two kinds of run specs, each with a repository of its own. -/
inductive Kind
  | app
  | pod
deriving DecidableEq

instance : Fintype Kind := ⟨{.app, .pod}, fun kind => by cases kind <;> decide⟩

namespace ScanDone

/-- `ScanDone()`, with nothing to delete. -/
def empty : ScanDone where
  appsToDelete := ∅
  appVersionsToDelete := ∅
  podsToDelete := ∅
  podVersionsToDelete := ∅
  rootVersionsToDelete := ∅

/-- Pods do not count: the source leaves them out. -/
def isEmpty (done : ScanDone) : Bool :=
  done.appsToDelete = ∅ && done.appVersionsToDelete.entries.isEmpty &&
    done.rootVersionsToDelete = ∅

/-- `ScanDone.++`. -/
def append (done that : ScanDone) : ScanDone where
  appsToDelete := done.appsToDelete ∪ that.appsToDelete
  appVersionsToDelete := done.appVersionsToDelete.merge that.appVersionsToDelete
  podsToDelete := done.podsToDelete ∪ that.podsToDelete
  podVersionsToDelete := done.podVersionsToDelete.merge that.podVersionsToDelete
  rootVersionsToDelete := done.rootVersionsToDelete ∪ that.rootVersionsToDelete

def idsToDelete (done : ScanDone) : Kind → Finset AbsolutePathId
  | .app => done.appsToDelete
  | .pod => done.podsToDelete

def versionsToDelete (done : ScanDone) : Kind → SetMap AbsolutePathId Timestamp
  | .app => done.appVersionsToDelete
  | .pod => done.podVersionsToDelete

end ScanDone

/-- What the reads of one scan return, `none` being a read that fails. Every read of a
root version has its position in the list of versions read, and every read of the
versions of an app or a pod the number of the batch it is made for: two reads of the
same thing can return different values. -/
structure Reads where
  rootVersions : Option (Finset Timestamp)
  root : Option RootGroup
  lazyAll : Option (List StoredPlan)
  lazyRootVersion : ℕ → Timestamp → Option (Option StoredGroup)
  ids : Kind → Option (Finset AbsolutePathId)
  versions : Kind → ℕ → AbsolutePathId → Option (Finset Timestamp)

/-! ## One batch of roots -/

/-- The run specs of a root group with their versions, at any depth. -/
def Kind.transitive (root : RootGroup) : Kind → List (AbsolutePathId × Timestamp)
  | app => root.transitiveApps.map fun app => (app.id, app.version)
  | pod => root.transitivePods.map fun pod => (pod.id, pod.version)

def Kind.transitiveIds (root : StoredGroup) : Kind → Dict AbsolutePathId Timestamp
  | app => root.transitiveAppIds
  | pod => root.transitivePodIds

/-- The versions in use by the current root, at any depth, and by the given roots, which
are asked for their `transitiveIds` only. -/
def idsInUse (kind : Kind) (currentRoot : RootGroup) (roots : List StoredGroup) :
    SetMap AbsolutePathId Timestamp :=
  (SetMap.addBindings ∅ (kind.transitive currentRoot)).addBindings
    (roots.flatMap fun root => (kind.transitiveIds root).bindings)

def appsInUse : RootGroup → List StoredGroup → SetMap AbsolutePathId Timestamp := idsInUse .app

def podsInUse : RootGroup → List StoredGroup → SetMap AbsolutePathId Timestamp := idsInUse .pod

/-- The versions of the used ids that have more than `maxVersions` of them. -/
def exceedingMaxVersions (maxVersions : ℤ) (versions : AbsolutePathId → Option (Finset Timestamp))
    (used : List AbsolutePathId) : Option (SetMap AbsolutePathId Timestamp) := do
  let all ← used.mapM fun id => (versions id).map fun found => (id, found)
  pure (Dict.insertAll ∅ (all.filter fun e => maxVersions < e.2.card))

/-- Of the ids with too many versions, the oldest versions that are not in use. -/
def versionsToDelete (maxVersions : ℤ) (used tooMany : SetMap AbsolutePathId Timestamp) :
    SetMap AbsolutePathId Timestamp :=
  tooMany.mapWithKey fun id versions =>
    takeLeast (versions.card - maxVersions).toNat (versions \ used.get id)

/-- The proposal of one batch of the roots in use. -/
def scanBatch (config : Config) (reads : Reads) (rootsToDelete : Finset Timestamp)
    (currentRoot : RootGroup) (batch : ℕ) (inUseRoots : List StoredGroup) : Option ScanDone := do
  let allAppIds ← reads.ids .app
  let allPodIds ← reads.ids .pod
  let usedApps := appsInUse currentRoot inUseRoots
  let usedPods := podsInUse currentRoot inUseRoots
  let appsWithTooManyVersions ←
    exceedingMaxVersions config.maxVersions (reads.versions .app batch) usedApps.keys
  let podsWithTooManyVersions ←
    exceedingMaxVersions config.maxVersions (reads.versions .pod batch) usedPods.keys
  pure
    { appsToDelete := allAppIds \ usedApps.keys.toFinset
      appVersionsToDelete := versionsToDelete config.maxVersions usedApps appsWithTooManyVersions
      podsToDelete := allPodIds \ usedPods.keys.toFinset
      podVersionsToDelete := versionsToDelete config.maxVersions usedPods podsWithTooManyVersions
      rootVersionsToDelete := rootsToDelete }

/-! ## The whole scan -/

/-- The root versions of the plans, in the order in which they are read. -/
def planVersions (storedPlans : List StoredPlan) : List Timestamp :=
  storedPlans.flatMap fun plan => [plan.originalVersion, plan.targetVersion]

/-- The stored roots of the plans; a version that is not found is skipped. -/
def rootsInUse (reads : Reads) (storedPlans : List StoredPlan) : Option (List StoredGroup) :=
  ((planVersions storedPlans).zipIdx.mapM fun v => reads.lazyRootVersion v.2 v.1).map
    List.reduceOption

/-- A failed batch proposes nothing; a failed read of a root fails the whole. -/
def scanUnusedAppsAndPods (config : Config) (reads : Reads) (rootsToDelete : Finset Timestamp)
    (storedPlans : List StoredPlan) (currentRoot : RootGroup) : Option ScanDone :=
  -- `grouped` throws when the size is not positive
  if config.scanBatchSize ≤ 0 then none
  else do
    let roots ← rootsInUse reads storedPlans
    let scans := (grouped config.scanBatchSize.toNat roots).zipIdx.map fun b =>
      (scanBatch config reads rootsToDelete currentRoot b.2 b.1).getD .empty
    pure (scans.foldl .append .empty)

/-- The root versions that are neither current nor needed by a plan. -/
def deletionCandidates (rootVersions : Finset Timestamp) (currentRoot : RootGroup)
    (storedPlans : List StoredPlan) : Finset Timestamp :=
  rootVersions \ insert currentRoot.version (planVersions storedPlans).toFinset

/-- The oldest candidates, to get back to `maxVersions`. -/
def rootsToDelete (maxVersions : ℤ) (rootVersions : Finset Timestamp) (currentRoot : RootGroup)
    (storedPlans : List StoredPlan) : Finset Timestamp :=
  takeLeast (rootVersions.card - maxVersions).toNat
    (deletionCandidates rootVersions currentRoot storedPlans)

/-- The scan, `none` when it fails. -/
def tryScan (config : Config) (reads : Reads) : Option ScanDone := do
  let rootVersions ← reads.rootVersions
  if rootVersions.card ≤ config.maxVersions then pure .empty
  else
    let currentRoot ← reads.root
    let storedPlans ← reads.lazyAll
    if deletionCandidates rootVersions currentRoot storedPlans = ∅ then pure .empty
    else
      let toDelete := rootsToDelete config.maxVersions rootVersions currentRoot storedPlans
      if toDelete = ∅ then pure .empty
      else scanUnusedAppsAndPods config reads toDelete storedPlans currentRoot

/-- `GcActor.scan`: a scan that fails proposes nothing. -/
def scan (config : Config) (reads : Reads) : ScanDone := (tryScan config reads).getD .empty

end Marathon.Storage.GcActor
