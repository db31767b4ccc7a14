import Marathon.Storage.GcSafety

/-!
# What a run of the collector deletes

A run with nothing stored meanwhile: the scan of a store and the deletions of the compaction
that follows. They are compared with what a store is meant to lose, its oldest root versions
that nobody needs and all that only they keep.
-/

namespace Marathon.Storage.GcActor

open Lib

/-! ## The run -/

/-- The collector at the end of a scan of the store, with nothing stored since it began. -/
def scanned (store : Store) : State where
  data := .scanning .empty
  selfInbox := []
  reads := store.reads
  remaining := ∅
  requests := []
  store := store
  approvedSince := []

/-- The deletions of the compaction that follows the scan, if any does. -/
def deletedBy (config : Config) (store : Store) : Finset Deletion :=
  ((scanned store).receive config (.scanDone (scan config store.reads))).remaining

namespace Store

/-- The run spec is referenced by a root that is kept: by the current one, or by a stored
root that is not overdue. -/
def Kept (config : Config) (store : Store) (kind : Kind) (id : AbsolutePathId) (v : Timestamp) :
    Prop :=
  store.InUse (store.Overdue config) kind id v

open Classical in
/-- The versions of a run spec that no kept root references. -/
noncomputable def unreferenced (config : Config) (store : Store) (kind : Kind)
    (id : AbsolutePathId) : Finset Timestamp :=
  ((store.runSpecs kind).get id).filter fun v => ¬store.Kept config kind id v

/-- What a run is meant to delete: the oldest root versions that nobody needs, the run specs
that no kept root references, and of the others with too many versions the oldest
unreferenced versions, up to the excess. -/
def Expires (config : Config) (store : Store) : Deletion → Prop
  | .root version => store.Overdue config version
  | .id kind id => id ∈ store.runSpecs kind ∧ ∀ v, ¬store.Kept config kind id v
  | .version kind id v =>
    (∃ w, store.Kept config kind id w) ∧
      config.maxVersions < ((store.runSpecs kind).get id).card ∧
      v ∈ takeLeast (((store.runSpecs kind).get id).card - config.maxVersions).toNat
        (store.unreferenced config kind id)

end Store

/-! ### The deletions of a compaction -/

section Deletions

variable {blocked : BlockedEntities} {kind : Kind} {id : AbsolutePathId} {v : Timestamp}

theorem id_mem_deletions :
    Deletion.id kind id ∈ blocked.deletions ↔ id ∈ blocked.idsDeleting kind := by
  cases kind <;>
    simp [BlockedEntities.deletions, BlockedEntities.deletionsOf, BlockedEntities.idsDeleting]

theorem version_mem_deletionsOf {kind' : Kind} :
    Deletion.version kind id v ∈ blocked.deletionsOf kind' ↔
      kind' = kind ∧ v ∈ (blocked.versionsDeleting kind').get id := by
  simp only [BlockedEntities.deletionsOf, Finset.mem_union, Finset.mem_image, Finset.mem_biUnion,
    List.mem_toFinset, reduceCtorEq, and_false, exists_false, false_or]
  constructor
  · rintro ⟨id', _, w, hw, heq⟩
    cases heq
    exact ⟨rfl, hw⟩
  · rintro ⟨rfl, hv⟩
    refine ⟨id, ?_, v, hv, rfl⟩
    by_contra hid
    rw [← AList.mem_keys] at hid
    rw [SetMap.get, AList.lookup_eq_none.mpr hid] at hv
    exact Finset.notMem_empty v hv

theorem version_mem_deletions :
    Deletion.version kind id v ∈ blocked.deletions ↔
      v ∈ (blocked.versionsDeleting kind).get id := by
  simp only [BlockedEntities.deletions, Finset.mem_union, version_mem_deletionsOf, Finset.mem_image,
    reduceCtorEq, and_false, exists_false, or_false]
  cases kind <;> simp

theorem root_mem_deletions : Deletion.root v ∈ blocked.deletions ↔ v ∈ blocked.rootsDeleting := by
  simp [BlockedEntities.deletions, BlockedEntities.deletionsOf]

end Deletions

theorem computeActualDeletions_empty (done : ScanDone) (kind : Kind) :
    (computeActualDeletions .empty done).idsDeleting kind = done.idsToDelete kind ∧
      (∀ id, ((computeActualDeletions .empty done).versionsDeleting kind).get id =
        (done.versionsToDelete kind).get id) ∧
      (computeActualDeletions .empty done).rootsDeleting = done.rootVersionsToDelete := by
  have hversions : ∀ (proposed : SetMap AbsolutePathId Timestamp) id,
      (versionsToActuallyDelete proposed ∅).get id = proposed.get id := by
    intro proposed id
    rw [versionsToActuallyDelete, SetMap.get, SetMap.get, Dict.lookup_mapWithKey]
    cases proposed.lookup id <;> rfl
  have hids : ∀ ids : Finset AbsolutePathId,
      ids \ (∅ ∪ (∅ : SetMap AbsolutePathId Timestamp).keys.toFinset) = ids := by
    intro ids
    simp
  cases kind with
  | app => exact ⟨hids _, hversions _, Finset.sdiff_empty⟩
  | pod => exact ⟨hids _, hversions _, Finset.sdiff_empty⟩

theorem deletedBy_eq (config : Config) (store : Store) :
    deletedBy config store = if (scan config store.reads).isEmpty then ∅
      else (computeActualDeletions .empty (scan config store.reads)).deletions := by
  simp only [deletedBy, State.receive, scanned, State.receiveScanning]
  split
  · simp only [UpdatedEntities.empty, Bool.false_eq_true, if_false, State.goToRest]
  · rfl

theorem mem_deletedBy {config : Config} {store : Store}
    (hdone : ¬(scan config store.reads).isEmpty) {d : Deletion} :
    d ∈ deletedBy config store ↔
      match d with
      | .root version => version ∈ (scan config store.reads).rootVersionsToDelete
      | .id kind id => id ∈ (scan config store.reads).idsToDelete kind
      | .version kind id v => v ∈ ((scan config store.reads).versionsToDelete kind).get id := by
  rw [deletedBy_eq, if_neg hdone]
  cases d with
  | root version =>
    rw [root_mem_deletions, (computeActualDeletions_empty _ .app).2.2]
  | id kind id => rw [id_mem_deletions, (computeActualDeletions_empty _ kind).1]
  | version kind id v => rw [version_mem_deletions, (computeActualDeletions_empty _ kind).2.1]

/-! ## The run deletes what expires -/

namespace Store

variable {config : Config} {store : Store} {kind : Kind} {id : AbsolutePathId} {v : Timestamp}

theorem kept_of_listed {roots : List StoredGroup}
    (hroots : roots ∈ grouped config.scanBatchSize.toNat store.planRoots)
    (h : Listed kind store.currentRoot roots id v) : store.Kept config kind id v := by
  rcases h with hcurrent | ⟨root, hroot, hlookup⟩
  · exact .inl hcurrent
  · refine .inr (.inl ⟨root, ?_, ?_⟩)
    · rw [← flatten_grouped config.scanBatchSize.toNat store.planRoots]
      exact List.mem_flatten.mpr ⟨roots, hroots, hroot⟩
    · cases kind <;> exact StoredGroup.mem_references_of_lookup_transitiveIds hlookup

theorem mem_unreferenced :
    v ∈ store.unreferenced config kind id ↔
      v ∈ (store.runSpecs kind).get id ∧ ¬store.Kept config kind id v := by
  classical
  exact Finset.mem_filter

theorem mem_runSpecs_of_mem_get (h : v ∈ (store.runSpecs kind).get id) :
    id ∈ store.runSpecs kind := by
  by_contra hid
  rw [SetMap.get, AList.lookup_eq_none.mpr hid] at h
  exact Finset.notMem_empty v h

/-- Every batch of the plans' roots spares what a kept root references. -/
def BatchesSpare (config : Config) (store : Store) : Prop :=
  ∀ kind id v, store.Kept config kind id v →
    ∀ roots ∈ grouped config.scanBatchSize.toNat store.planRoots,
      store.Spares config roots kind id v

theorem takeLeast_unreferenced (hspares : store.BatchesSpare config) {roots : List StoredGroup}
    (hroots : roots ∈ grouped config.scanBatchSize.toNat store.planRoots)
    (hlisted : ∃ w, Listed kind store.currentRoot roots id w)
    (hmany : config.maxVersions < ((store.runSpecs kind).get id).card) :
    takeLeast (((store.runSpecs kind).get id).card - config.maxVersions).toNat
        ((store.runSpecs kind).get id \ (idsInUse kind store.currentRoot roots).get id) =
      takeLeast (((store.runSpecs kind).get id).card - config.maxVersions).toNat
        (store.unreferenced config kind id) := by
  apply takeLeast_eq_of_subset
  · intro v hv
    obtain ⟨hstored, hnot⟩ := mem_unreferenced.mp hv
    refine Finset.mem_sdiff.mpr ⟨hstored, fun hused => hnot ?_⟩
    exact kept_of_listed hroots (mem_get_idsInUse.mp hused)
  · intro v hv hreferenced htake
    have hstored := (Finset.mem_sdiff.mp hv).1
    have hkept : store.Kept config kind id v := by
      by_contra hnot
      exact hreferenced (mem_unreferenced.mpr ⟨hstored, hnot⟩)
    exact (spares_iff.mp (hspares kind id v hkept roots hroots)).2 ⟨hlisted, hmany, htake⟩

section Overdue

variable {version : Timestamp} (hoverdue : store.Overdue config version)
  (hsize : 0 < config.scanBatchSize)

include hoverdue hsize

theorem not_isEmpty_scan (hroots : store.planRoots ≠ []) : ¬(scan config store.reads).isEmpty := by
  have hbatch : grouped config.scanBatchSize.toNat store.planRoots ≠ [] :=
    fun h => hroots (grouped_eq_nil_iff.mp h)
  have hmem := (mem_rootVersionsToDelete hsize hoverdue hbatch).mpr hoverdue
  intro hempty
  simp only [ScanDone.isEmpty, Bool.and_eq_true, decide_eq_true_eq] at hempty
  rw [hempty.2] at hmem
  exact Finset.notMem_empty _ hmem

theorem mem_deletedBy_iff_expires (hroots : store.planRoots ≠ [])
    (hspares : store.BatchesSpare config) (d : Deletion) :
    d ∈ deletedBy config store ↔ store.Expires config d := by
  have hbatch : grouped config.scanBatchSize.toNat store.planRoots ≠ [] :=
    fun h => hroots (grouped_eq_nil_iff.mp h)
  obtain ⟨first, hfirst⟩ := List.exists_mem_of_ne_nil _ hbatch
  rw [mem_deletedBy (not_isEmpty_scan hoverdue hsize hroots)]
  cases d with
  | root deleted => exact mem_rootVersionsToDelete hsize hoverdue hbatch
  | id kind id =>
    calc id ∈ (scan config store.reads).idsToDelete kind
        ↔ ∃ roots ∈ grouped config.scanBatchSize.toNat store.planRoots,
            ProposesId kind store.currentRoot roots (store.runSpecs kind).keys.toFinset id :=
          mem_idsToDelete hsize hoverdue
      _ ↔ id ∈ store.runSpecs kind ∧ ∀ v, ¬store.Kept config kind id v := by
          constructor
          · rintro ⟨roots, hmem, hprop⟩
            refine ⟨AList.mem_keys.mpr (List.mem_toFinset.mp hprop.1), fun v hkept => ?_⟩
            exact (spares_iff.mp (hspares kind id v hkept roots hmem)).1 hprop
          · rintro ⟨hid, hnot⟩
            refine ⟨first, hfirst, List.mem_toFinset.mpr (AList.mem_keys.mp hid), ?_⟩
            exact fun v hlisted => hnot v (kept_of_listed hfirst hlisted)
  | version kind id v =>
    calc v ∈ ((scan config store.reads).versionsToDelete kind).get id
        ↔ ∃ roots ∈ grouped config.scanBatchSize.toNat store.planRoots,
            ProposesVersion config.maxVersions kind store.currentRoot roots
              ((store.runSpecs kind).get id) id v := mem_versionsToDelete hsize hoverdue
      _ ↔ store.Expires config (.version kind id v) := by
          constructor
          · rintro ⟨roots, hmem, hlisted, hmany, hv⟩
            rw [takeLeast_unreferenced hspares hmem hlisted hmany] at hv
            exact ⟨hlisted.imp fun w hw => kept_of_listed hmem hw, hmany, hv⟩
          · rintro ⟨⟨w, hw⟩, hmany, hv⟩
            have hstored := (mem_unreferenced.mp (takeLeast_subset _ _ hv)).1
            -- a batch that spares a version of a stored run spec lists the run spec
            have hlisted : ∃ w, Listed kind store.currentRoot first id w := by
              rcases hspares kind id w hw first hfirst with hlisted | ⟨hid, _⟩ | ⟨hlisted, _⟩
              · exact ⟨w, hlisted⟩
              · exact absurd (List.mem_toFinset.mpr
                  (AList.mem_keys.mp (mem_runSpecs_of_mem_get hstored))) hid
              · exact hlisted
            refine ⟨first, hfirst, hlisted, hmany, ?_⟩
            rwa [takeLeast_unreferenced hspares hfirst hlisted hmany]

end Overdue

theorem deletedBy_eq_empty (hnone : ∀ version, ¬store.Overdue config version) :
    deletedBy config store = ∅ := by
  rw [deletedBy_eq, scan_eq_empty_of_not_overdue hnone]
  exact if_pos rfl

/-- **Retention.** With no root version overdue a run deletes nothing. With some overdue, when
there is a batch to scan and every batch spares what is kept, a run is not reported as empty
and deletes exactly what expires, as many root versions as there are too many or candidates. -/
theorem retention (config : Config) (store : Store) :
    ((∀ version, ¬store.Overdue config version) → deletedBy config store = ∅) ∧
    ((∃ version, store.Overdue config version) → 0 < config.scanBatchSize →
      store.planRoots ≠ [] → store.BatchesSpare config →
        ¬(scan config store.reads).isEmpty ∧
        (∀ d, d ∈ deletedBy config store ↔ store.Expires config d) ∧
        (rootsToDelete config.maxVersions store.rootVersions.keys.toFinset store.currentRoot
          store.plans).card =
            min (store.rootVersions.keys.toFinset.card - config.maxVersions).toNat
              store.candidates.card) := by
  refine ⟨deletedBy_eq_empty, ?_⟩
  rintro ⟨version, hoverdue⟩ hsize hroots hspares
  exact ⟨not_isEmpty_scan hoverdue hsize hroots,
    mem_deletedBy_iff_expires hoverdue hsize hroots hspares, card_takeLeast _ _⟩

/-! ### A run that deletes an app and a root version -/

theorem kept_spareStore (h : State.spareStore.Kept twoVersions kind id v) :
    kind = .app ∧ id = ⟨["x"]⟩ ∧ v = ⟨2⟩ := by
  have hempty : ∀ version, (id, v) ∉ kind.references (storedGroup [] [] [] version) := by
    intro version hmem
    cases kind <;> cases hmem
  have happ : (id, v) ∈ kind.references (storedGroup [] [(⟨["x"]⟩, ⟨2⟩)] [] ⟨2⟩) →
      kind = .app ∧ id = ⟨["x"]⟩ ∧ v = ⟨2⟩ := by
    intro hmem
    cases kind with
    | app =>
      cases List.mem_singleton.mp hmem
      exact ⟨rfl, rfl, rfl⟩
    | pod => cases hmem
  have hstored : ∀ version root, State.spareStore.rootVersions.lookup version = some root →
      (id, v) ∈ kind.references root → kind = .app ∧ id = ⟨["x"]⟩ ∧ v = ⟨2⟩ := by
    intro version root hlookup hmem
    rcases Dict.lookup_insertAll_eq_some hlookup with hnone | hbinding
    · cases hnone
    · simp only [List.mem_cons, Prod.mk.injEq, List.not_mem_nil, or_false] at hbinding
      rcases hbinding with ⟨_, rfl⟩ | ⟨_, rfl⟩ | ⟨_, rfl⟩
      · exact absurd hmem (hempty _)
      · exact happ hmem
      · exact absurd hmem (hempty _)
  rcases h with hcurrent | ⟨root, hroot, hmem⟩ | ⟨version, root, hlookup, _, hmem⟩
  · cases kind <;> cases hcurrent
  · obtain ⟨version, _, hlookup⟩ := List.mem_filterMap.mp hroot
    exact hstored version root hlookup hmem
  · exact hstored version root hlookup hmem

instance (version : Timestamp) : Decidable (store.Overdue config version) :=
  inferInstanceAs (Decidable (_ ∧ _))

instance (roots : List StoredGroup) : Decidable (store.Spares config roots kind id v) :=
  inferInstanceAs (Decidable (GcActor.Spares ..))

theorem retention_spareStore :
    ∀ d, d ∈ deletedBy twoVersions State.spareStore ↔ State.spareStore.Expires twoVersions d := by
  have hspares : State.spareStore.BatchesSpare twoVersions := by
    intro kind id v hkept roots hroots
    obtain ⟨rfl, rfl, rfl⟩ := kept_spareStore hkept
    revert roots
    decide
  have hoverdue : State.spareStore.Overdue twoVersions ⟨1⟩ := by decide
  exact ((retention twoVersions State.spareStore).2 ⟨⟨1⟩, hoverdue⟩ (by decide) (by decide)
    hspares).2.1

/-! ### A store with every root version in use -/

def oneVersion : Config where
  maxVersions := 1
  scanBatchSize := 32
  cleaningInterval := 0

/-- The stored plan leads from the other root version to the current one; no root has the app
`/y`. -/
def busyStore : Store where
  rootVersions := Dict.insertAll ∅
    [(⟨2⟩, storedGroup [] [] [] ⟨2⟩), (⟨3⟩, storedGroup [] [] [] ⟨3⟩)]
  currentRoot := Group.empty .root none ⟨3⟩
  plans := [⟨"restart", ⟨2⟩, ⟨3⟩, ⟨3⟩⟩]
  runSpecs := fun kind =>
    match kind with
    | .app => Dict.insertAll ∅ [(⟨["y"]⟩, {⟨1⟩})]
    | .pod => ∅

theorem not_kept_busyStore (h : busyStore.Kept oneVersion kind id v) : False := by
  have hempty : ∀ version root, busyStore.rootVersions.lookup version = some root →
      (id, v) ∉ kind.references root := by
    intro version root hlookup hmem
    rcases Dict.lookup_insertAll_eq_some hlookup with hnone | hbinding
    · cases hnone
    · simp only [List.mem_cons, Prod.mk.injEq, List.not_mem_nil, or_false] at hbinding
      rcases hbinding with ⟨_, rfl⟩ | ⟨_, rfl⟩ <;> cases kind <;> cases hmem
  rcases h with hcurrent | ⟨root, hroot, hmem⟩ | ⟨version, root, hlookup, _, hmem⟩
  · cases kind <;> cases hcurrent
  · obtain ⟨version, _, hlookup⟩ := List.mem_filterMap.mp hroot
    exact hempty version root hlookup hmem
  · exact hempty version root hlookup hmem

/-- With every root version in use nothing is done, whatever apps nobody references. -/
theorem not_forall_deletes_exactly :
    ¬∀ config store, config.maxVersions < (store.rootVersions.keys.toFinset.card : ℤ) →
      ∀ d, d ∈ deletedBy config store ↔ store.Expires config d := by
  intro hall
  have hexpires : busyStore.Expires oneVersion (.id .app ⟨["y"]⟩) :=
    ⟨by decide, fun _ => not_kept_busyStore⟩
  have hmem := (hall oneVersion busyStore (by decide) (.id .app ⟨["y"]⟩)).mpr hexpires
  have hempty : deletedBy oneVersion busyStore = ∅ := by decide
  rw [hempty] at hmem
  exact Finset.notMem_empty _ hmem

end Store

end Marathon.Storage.GcActor
