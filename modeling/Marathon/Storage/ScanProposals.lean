import Marathon.Storage.GcScan

/-!
# What a scan proposes

The proposals of one batch, for any reads, and the union that a whole scan makes of them.
-/

namespace Marathon.Storage.GcActor

open Lib

/-! ## The proposals of one batch -/

variable {maxVersions : ℤ} {versions : AbsolutePathId → Option (Finset Timestamp)}
  {tooMany : SetMap AbsolutePathId Timestamp} {done : ScanDone} {scans : List ScanDone}

section Batch

variable {kind : Kind} {currentRoot : RootGroup} {roots : List StoredGroup}
  {id : AbsolutePathId} {v : Timestamp}

/-- What a batch of roots is seen to use: what is anywhere in the current root, and what
is in the `transitiveIds` of one of the roots. -/
def Listed (kind : Kind) (currentRoot : RootGroup) (roots : List StoredGroup)
    (id : AbsolutePathId) (v : Timestamp) : Prop :=
  (id, v) ∈ kind.transitive currentRoot ∨
    ∃ root ∈ roots, (kind.transitiveIds root).lookup id = some v

theorem mem_get_idsInUse :
    v ∈ (idsInUse kind currentRoot roots).get id ↔ Listed kind currentRoot roots id v := by
  simp only [idsInUse, SetMap.mem_get_addBindings, SetMap.get_empty, Finset.notMem_empty,
    false_or, List.mem_flatMap, Dict.mem_bindings, Listed]

theorem mem_keys_idsInUse :
    id ∈ (idsInUse kind currentRoot roots).keys ↔ ∃ v, Listed kind currentRoot roots id v := by
  rw [← AList.mem_keys]
  simp only [idsInUse, SetMap.mem_addBindings, AList.notMem_empty, false_or, List.mem_flatMap,
    Dict.mem_bindings, Listed, exists_or]

theorem lookup_exceedingMaxVersions {used : List AbsolutePathId}
    (hnodup : used.Nodup)
    (h : exceedingMaxVersions maxVersions versions used = some tooMany) {found : Finset Timestamp} :
    tooMany.lookup id = some found ↔
      id ∈ used ∧ versions id = some found ∧ maxVersions < found.card := by
  simp only [exceedingMaxVersions, bind, Option.bind_eq_some_iff, pure, Option.some.injEq] at h
  obtain ⟨all, hall, rfl⟩ := h
  have hkeys : all.map Prod.fst = used := by
    have hforall := forall₂_of_mapM hall
    clear hall hnodup
    induction hforall with
    | nil => rfl
    | cons hab _ ih =>
      obtain ⟨found, _, rfl⟩ := Option.map_eq_some_iff.mp hab
      rw [List.map_cons, ih]
  have hmem : ∀ found : Finset Timestamp, (id, found) ∈ all ↔ id ∈ used ∧ versions id = some found := by
    intro found
    rw [mem_of_mapM hall]
    simp only [Option.map_eq_some_iff, Prod.mk.injEq]
    constructor
    · rintro ⟨id', hid', found', hfound', rfl, rfl⟩
      exact ⟨hid', hfound'⟩
    · rintro ⟨hid, hfound⟩
      exact ⟨id, hid, found, hfound, rfl, rfl⟩
  have hsub : ((all.filter fun e => maxVersions < e.2.card).map Prod.fst).Nodup := by
    have hsublist := (List.filter_sublist (p := fun e : AbsolutePathId × Finset Timestamp =>
      decide (maxVersions < e.2.card)) (l := all)).map Prod.fst
    exact hsublist.nodup (hkeys ▸ hnodup)
  constructor
  · intro hlookup
    by_cases hin : ∃ found', (id, found') ∈ all.filter fun e => maxVersions < e.2.card
    · obtain ⟨found', hin⟩ := hin
      rw [Dict.lookup_insertAll_of_mem hsub hin] at hlookup
      cases hlookup
      rw [List.mem_filter, hmem, decide_eq_true_eq] at hin
      exact ⟨hin.1.1, hin.1.2, hin.2⟩
    · have hnone : ∀ e ∈ all.filter fun e => maxVersions < e.2.card, e.1 ≠ id := by
        rintro ⟨id', found'⟩ he rfl
        exact hin ⟨found', he⟩
      rw [Dict.lookup_insertAll_of_notMem hnone] at hlookup
      cases hlookup
  · rintro ⟨hid, hfound, hcard⟩
    apply Dict.lookup_insertAll_of_mem hsub
    rw [List.mem_filter, hmem, decide_eq_true_eq]
    exact ⟨⟨hid, hfound⟩, hcard⟩

theorem mem_get_versionsToDelete {used : SetMap AbsolutePathId Timestamp} :
    v ∈ (versionsToDelete maxVersions used tooMany).get id ↔
      ∃ found, tooMany.lookup id = some found ∧
        v ∈ takeLeast (found.card - maxVersions).toNat (found \ used.get id) := by
  rw [versionsToDelete, SetMap.get, Dict.lookup_mapWithKey]
  cases tooMany.lookup id <;> simp

/-- A batch proposes the ids of the repository that it does not see used at all. -/
def ProposesId (kind : Kind) (currentRoot : RootGroup) (roots : List StoredGroup)
    (allIds : Finset AbsolutePathId) (id : AbsolutePathId) : Prop :=
  id ∈ allIds ∧ ∀ v, ¬Listed kind currentRoot roots id v

/-- Of the ids it sees used, a batch proposes the oldest of the versions that it does not
see used, as many as there are versions beyond `maxVersions`. -/
def ProposesVersion (maxVersions : ℤ) (kind : Kind) (currentRoot : RootGroup)
    (roots : List StoredGroup) (found : Finset Timestamp) (id : AbsolutePathId) (v : Timestamp) :
    Prop :=
  (∃ w, Listed kind currentRoot roots id w) ∧ maxVersions < found.card ∧
    v ∈ takeLeast (found.card - maxVersions).toNat
      (found \ (idsInUse kind currentRoot roots).get id)

theorem mem_get_versionsToDelete_of_exceeding
    (h : exceedingMaxVersions maxVersions versions (idsInUse kind currentRoot roots).keys =
      some tooMany) :
    v ∈ (versionsToDelete maxVersions (idsInUse kind currentRoot roots) tooMany).get id ↔
      ∃ found, versions id = some found ∧
        ProposesVersion maxVersions kind currentRoot roots found id v := by
  rw [mem_get_versionsToDelete]
  apply exists_congr
  intro found
  rw [lookup_exceedingMaxVersions (AList.keys_nodup _) h, mem_keys_idsInUse, ProposesVersion]
  tauto

/-- Everything that a batch whose reads succeed proposes. -/
theorem scanBatch_proposals {config : Config} {reads : Reads} {toDelete : Finset Timestamp}
    {batch : ℕ} (h : scanBatch config reads toDelete currentRoot batch roots = some done) :
    done.rootVersionsToDelete = toDelete ∧ ∀ kind : Kind,
      (∀ id, id ∈ done.idsToDelete kind ↔
        ∃ allIds, reads.ids kind = some allIds ∧ ProposesId kind currentRoot roots allIds id) ∧
      ∀ id v, v ∈ (done.versionsToDelete kind).get id ↔
        ∃ found, reads.versions kind batch id = some found ∧
          ProposesVersion config.maxVersions kind currentRoot roots found id v := by
  simp only [scanBatch, bind, Option.bind_eq_some_iff, pure, Option.some.injEq] at h
  obtain ⟨allAppIds, happs, allPodIds, hpods, tooManyApps, htooApps, tooManyPods, htooPods, rfl⟩ := h
  have hids : ∀ kind allIds id, reads.ids kind = some allIds →
      (id ∈ allIds \ (idsInUse kind currentRoot roots).keys.toFinset ↔
        ∃ allIds, reads.ids kind = some allIds ∧ ProposesId kind currentRoot roots allIds id) := by
    intro kind allIds id hread
    rw [Finset.mem_sdiff, List.mem_toFinset, mem_keys_idsInUse, hread]
    simp [ProposesId]
  refine ⟨rfl, fun kind => ?_⟩
  cases kind with
  | app =>
    exact ⟨fun id => hids .app allAppIds id happs,
      fun id v => mem_get_versionsToDelete_of_exceeding htooApps⟩
  | pod =>
    exact ⟨fun id => hids .pod allPodIds id hpods,
      fun id v => mem_get_versionsToDelete_of_exceeding htooPods⟩

/-- A batch spares an object that it lists; an id that it lists in no version and that is not
among `allIds`; and a version of an id that it lists when the id has not too many versions,
when the version is not among them, or when enough of the older ones are not listed. -/
def Spares (maxVersions : ℤ) (kind : Kind) (currentRoot : RootGroup) (roots : List StoredGroup)
    (allIds : Finset AbsolutePathId) (versions : Finset Timestamp) (id : AbsolutePathId)
    (v : Timestamp) : Prop :=
  Listed kind currentRoot roots id v ∨
    (id ∉ allIds ∧ ∀ w, ¬Listed kind currentRoot roots id w) ∨
    ((∃ w, Listed kind currentRoot roots id w) ∧
      (versions.card ≤ maxVersions ∨ v ∉ versions ∨
        (versions.card - maxVersions).toNat ≤
          ((versions \ (idsInUse kind currentRoot roots).get id).filter (· < v)).card))

theorem spares_iff {allIds : Finset AbsolutePathId} {versions : Finset Timestamp} :
    Spares maxVersions kind currentRoot roots allIds versions id v ↔
      ¬ProposesId kind currentRoot roots allIds id ∧
        ¬ProposesVersion maxVersions kind currentRoot roots versions id v := by
  rw [Spares, ProposesId, ProposesVersion, mem_takeLeast, Finset.mem_sdiff, mem_get_idsInUse]
  simp only [not_and, not_lt]
  by_cases hlisted : Listed kind currentRoot roots id v
  · have hused : ∃ w, Listed kind currentRoot roots id w := ⟨v, hlisted⟩
    simp [hlisted, hused]
  by_cases hused : ∃ w, Listed kind currentRoot roots id w
  · have hnone : ¬∀ w, ¬Listed kind currentRoot roots id w := not_forall_not.mpr hused
    simp only [hlisted, hused, hnone, and_false, and_true, false_or, true_and, implies_true, not_false_iff,
      true_implies]
    constructor
    · rintro (hcard | hversion | hold) hmany hmem
      · exact absurd hmany (Int.not_lt.mpr hcard)
      · exact absurd hmem hversion
      · exact hold
    · intro h
      by_cases hcard : (versions.card : ℤ) ≤ maxVersions
      · exact .inl hcard
      by_cases hversion : v ∈ versions
      · exact .inr (.inr (h (Int.not_le.mp hcard) hversion))
      · exact .inr (.inl hversion)
  · have hnone : ∀ w, ¬Listed kind currentRoot roots id w := not_exists.mp hused
    simp [hnone]

end Batch

/-! ## The proposals of a whole scan -/

section Union

variable {kind : Kind} {id : AbsolutePathId} {v : Timestamp}

theorem mem_idsToDelete_foldl_append :
    id ∈ (scans.foldl .append done).idsToDelete kind ↔
      id ∈ done.idsToDelete kind ∨ ∃ scan ∈ scans, id ∈ scan.idsToDelete kind := by
  induction scans generalizing done with
  | nil => simp
  | cons scan scans ih =>
    have happend : id ∈ (done.append scan).idsToDelete kind ↔
        id ∈ done.idsToDelete kind ∨ id ∈ scan.idsToDelete kind := by
      cases kind <;> exact Finset.mem_union
    rw [List.foldl_cons, ih, happend, List.exists_mem_cons_iff, or_assoc]

theorem mem_versionsToDelete_foldl_append :
    v ∈ ((scans.foldl .append done).versionsToDelete kind).get id ↔
      v ∈ (done.versionsToDelete kind).get id ∨
        ∃ scan ∈ scans, v ∈ (scan.versionsToDelete kind).get id := by
  induction scans generalizing done with
  | nil => simp
  | cons scan scans ih =>
    have happend : v ∈ ((done.append scan).versionsToDelete kind).get id ↔
        v ∈ (done.versionsToDelete kind).get id ∨ v ∈ (scan.versionsToDelete kind).get id := by
      cases kind <;> exact SetMap.mem_get_merge
    rw [List.foldl_cons, ih, happend, List.exists_mem_cons_iff, or_assoc]

theorem mem_rootVersionsToDelete_foldl_append :
    v ∈ (scans.foldl .append done).rootVersionsToDelete ↔
      v ∈ done.rootVersionsToDelete ∨ ∃ scan ∈ scans, v ∈ scan.rootVersionsToDelete := by
  induction scans generalizing done with
  | nil => simp
  | cons scan scans ih =>
    have happend : v ∈ (done.append scan).rootVersionsToDelete ↔
        v ∈ done.rootVersionsToDelete ∨ v ∈ scan.rootVersionsToDelete := Finset.mem_union
    rw [List.foldl_cons, ih, happend, List.exists_mem_cons_iff, or_assoc]

@[simp]
theorem notMem_idsToDelete_empty : id ∉ ScanDone.empty.idsToDelete kind := by
  cases kind <;> exact Finset.notMem_empty id

@[simp]
theorem notMem_versionsToDelete_empty : v ∉ (ScanDone.empty.versionsToDelete kind).get id := by
  cases kind <;> exact Finset.notMem_empty v

@[simp]
theorem notMem_rootVersionsToDelete_empty : v ∉ ScanDone.empty.rootVersionsToDelete :=
  Finset.notMem_empty v

end Union

/-- The scan gets as far as its batches: there are root versions to delete, and the stored
roots of the plans could be read. -/
structure Reaches (config : Config) (reads : Reads) (rootVersions : Finset Timestamp)
    (currentRoot : RootGroup) (storedPlans : List StoredPlan) (roots : List StoredGroup) : Prop where
  readRootVersions : reads.rootVersions = some rootVersions
  readRoot : reads.root = some currentRoot
  readPlans : reads.lazyAll = some storedPlans
  overdue : rootsToDelete config.maxVersions rootVersions currentRoot storedPlans ≠ ∅
  batchSize : 0 < config.scanBatchSize
  readRoots : rootsInUse reads storedPlans = some roots

theorem rootsToDelete_eq_empty_of_card_le {rootVersions : Finset Timestamp}
    {currentRoot : RootGroup} {storedPlans : List StoredPlan}
    (h : rootVersions.card ≤ maxVersions) :
    rootsToDelete maxVersions rootVersions currentRoot storedPlans = ∅ := by
  have hzero : (rootVersions.card - maxVersions).toNat = 0 := by omega
  rw [rootsToDelete, hzero]
  apply Finset.eq_empty_of_forall_notMem
  intro v hv
  exact Nat.not_lt_zero _ (mem_takeLeast.mp hv).2

section Scan

variable {config : Config} {reads : Reads} {rootVersions : Finset Timestamp}
  {currentRoot : RootGroup} {storedPlans : List StoredPlan} {roots : List StoredGroup}

/-- The proposals of the batches one after another, a failed batch proposing nothing. -/
def batchScans (config : Config) (reads : Reads) (toDelete : Finset Timestamp)
    (currentRoot : RootGroup) (roots : List StoredGroup) : List ScanDone :=
  (grouped config.scanBatchSize.toNat roots).zipIdx.map fun b =>
    (scanBatch config reads toDelete currentRoot b.2 b.1).getD .empty

theorem scan_of_reaches (h : Reaches config reads rootVersions currentRoot storedPlans roots) :
    scan config reads = (batchScans config reads
      (rootsToDelete config.maxVersions rootVersions currentRoot storedPlans)
      currentRoot roots).foldl .append .empty := by
  have hcard : ¬rootVersions.card ≤ config.maxVersions := fun hle =>
    h.overdue (rootsToDelete_eq_empty_of_card_le hle)
  have hcandidates : deletionCandidates rootVersions currentRoot storedPlans ≠ ∅ := by
    intro hempty
    apply h.overdue
    rw [rootsToDelete, hempty]
    exact Finset.subset_empty.mp (takeLeast_subset _ _)
  have hsize : ¬config.scanBatchSize ≤ 0 := Int.not_le.mpr h.batchSize
  have htry : tryScan config reads = some ((batchScans config reads
      (rootsToDelete config.maxVersions rootVersions currentRoot storedPlans)
      currentRoot roots).foldl .append .empty) := by
    simp only [tryScan, h.readRootVersions, h.readRoot, h.readPlans,
      scanUnusedAppsAndPods, h.readRoots, bind,
      Option.bind_some, if_neg hcard, if_neg hcandidates, if_neg h.overdue, if_neg hsize, pure,
      batchScans]
  rw [scan, htry, Option.getD_some]

/-- A scan that proposes something has got as far as its batches. -/
theorem scan_eq_empty_or_reaches (config : Config) (reads : Reads) :
    scan config reads = .empty ∨ ∃ rootVersions currentRoot storedPlans roots,
      Reaches config reads rootVersions currentRoot storedPlans roots := by
  by_cases hreaches : ∃ rootVersions currentRoot storedPlans roots,
      Reaches config reads rootVersions currentRoot storedPlans roots
  · exact .inr hreaches
  left
  have htry : ∀ done, tryScan config reads = some done → done = .empty := by
    intro done htry
    simp only [tryScan, bind, Option.bind_eq_some_iff, pure] at htry
    obtain ⟨rootVersions, hversions, htry⟩ := htry
    split at htry
    · exact (Option.some.inj htry).symm
    obtain ⟨currentRoot, hroot, storedPlans, hplans, htry⟩ := by
      simpa only [Option.bind_eq_some_iff] using htry
    split at htry
    · exact (Option.some.inj htry).symm
    split at htry
    · exact (Option.some.inj htry).symm
    rename_i hoverdue
    simp only [scanUnusedAppsAndPods] at htry
    split at htry
    · cases htry
    rename_i hsize
    obtain ⟨roots, hroots, _⟩ := Option.bind_eq_some_iff.mp htry
    exact (hreaches ⟨rootVersions, currentRoot, storedPlans, roots, hversions, hroot, hplans,
      hoverdue, Int.not_le.mp hsize, hroots⟩).elim
  rw [scan]
  cases h : tryScan config reads with
  | none => rfl
  | some done => exact htry done h

end Scan

end Marathon.Storage.GcActor
