import Marathon.Storage.GcRuns

/-!
# What the collector deletes

What a compaction is about to delete is needed by nobody, every step that keeps track keeps
it so, and therefore no deletion is one of something that is referenced.
-/

namespace Marathon.Storage.GcActor

open Lib

/-! ## The proposals of the scan -/

variable {kind : Kind} {id : AbsolutePathId} {v version : Timestamp} {root found : StoredGroup}
  {since : List StoredGroup} {reads : Reads} {store : Store} {blocked : BlockedEntities}

section Proposals

variable {config : Config} {reads : Reads} {rootVersions : Finset Timestamp}
  {currentRoot : RootGroup} {storedPlans : List StoredPlan} {roots : List StoredGroup}

theorem not_proposes_of_spares
    (hreaches : Reaches config reads rootVersions currentRoot storedPlans roots)
    (hspares : ∀ batch ∈ (grouped config.scanBatchSize.toNat roots).zipIdx,
      Spares config.maxVersions kind currentRoot batch.1 ((reads.ids kind).getD ∅)
        ((reads.versions kind batch.2 id).getD ∅) id v) :
    ¬(scan config reads).Proposes kind id v := by
  have hbatch : ∀ done ∈ batchScans config reads
      (rootsToDelete config.maxVersions rootVersions currentRoot storedPlans) currentRoot roots,
      id ∉ done.idsToDelete kind ∧ v ∉ (done.versionsToDelete kind).get id := by
    intro done hdone
    obtain ⟨batch, hmem, rfl⟩ := List.mem_map.mp hdone
    obtain ⟨hid, hversion⟩ := spares_iff.mp (hspares batch hmem)
    cases hscan : scanBatch config reads
        (rootsToDelete config.maxVersions rootVersions currentRoot storedPlans) currentRoot batch.2
        batch.1 with
    | none => exact ⟨notMem_idsToDelete_empty, notMem_versionsToDelete_empty⟩
    | some done =>
      obtain ⟨hids, hversions⟩ := (scanBatch_proposals hscan).2 kind
      rw [Option.getD_some, hids, hversions]
      constructor
      · rintro ⟨allIds, hread, hproposes⟩
        rw [hread] at hid
        exact hid hproposes
      · rintro ⟨found, hread, hproposes⟩
        rw [hread] at hversion
        exact hversion hproposes
  rw [scan_of_reaches hreaches]
  rintro (hid | hversion)
  · rcases mem_idsToDelete_foldl_append.mp hid with hempty | ⟨done, hdone, hid⟩
    · exact notMem_idsToDelete_empty hempty
    · exact (hbatch done hdone).1 hid
  · rcases mem_versionsToDelete_foldl_append.mp hversion with hempty | ⟨done, hdone, hversion⟩
    · exact notMem_versionsToDelete_empty hempty
    · exact (hbatch done hdone).2 hversion

theorem notMem_rootVersionsToDelete
    (hreaches : Reaches config reads rootVersions currentRoot storedPlans roots)
    (h : version = currentRoot.version ∨ version ∈ planVersions storedPlans) :
    version ∉ (scan config reads).rootVersionsToDelete := by
  rw [scan_of_reaches hreaches, mem_rootVersionsToDelete_foldl_append]
  rintro (hempty | ⟨done, hdone, hversion⟩)
  · exact notMem_rootVersionsToDelete_empty hempty
  obtain ⟨batch, _, rfl⟩ := List.mem_map.mp hdone
  cases hscan : scanBatch config reads
      (rootsToDelete config.maxVersions rootVersions currentRoot storedPlans) currentRoot batch.2
      batch.1 with
  | none =>
    rw [hscan] at hversion
    exact notMem_rootVersionsToDelete_empty hversion
  | some done =>
    rw [hscan, Option.getD_some, (scanBatch_proposals hscan).1] at hversion
    have hcandidate := takeLeast_subset _ _ hversion
    rw [deletionCandidates, Finset.mem_sdiff, Finset.mem_insert, List.mem_toFinset] at hcandidate
    exact hcandidate.2 h

end Proposals

/-! ## The beginning of a compaction -/

section Begin

variable {config : Config} {s : State} {updates : UpdatedEntities}

/-- What is protected while scanning stays so, if what the collector does not track is
recorded otherwise or not proposed. -/
theorem Data.Protects.compacting {done : ScanDone}
    (h : (Data.scanning updates).Protects root)
    (htracked : ∀ kind : Kind, ∀ ref ∈ kind.references root,
      (kind = .app ∧ Tracked root ref.1 ref.2) ∨ updates.Records kind ref.1 ref.2 ∨
        ¬done.Proposes kind ref.1 ref.2) :
    (Data.compacting (computeActualDeletions updates done)).Protects root := by
  refine ⟨?_, ?_⟩
  · intro hdelete
    exact (Finset.mem_sdiff.mp hdelete).2 h.1
  · intro kind id v href hdelete
    obtain ⟨hproposes, hunrecorded⟩ := deletes_computeActualDeletions hdelete
    rcases htracked kind (id, v) href with ⟨rfl, hroot⟩ | hrecords | hnot
    · exact hunrecorded (h.2 id v hroot)
    · exact hunrecorded hrecords
    · exact hnot hproposes

theorem ReadsCurrent.planRoot
    (hcurrent : ReadsCurrent reads store since) {storedPlans : List StoredPlan}
    (hplans : reads.lazyAll = some storedPlans) {roots : List StoredGroup}
    (hroots : rootsInUse reads storedPlans = some roots) (hroot : root ∈ store.planRoots) :
    root ∈ roots ∨ ∃ other ∈ since, ∀ kind : Kind, kind.references root ⊆ kind.references other := by
  obtain ⟨version, hversion, hlookup⟩ := List.mem_filterMap.mp hroot
  obtain ⟨plan, hplan, hof⟩ := List.mem_flatMap.mp hversion
  rcases hcurrent.plans storedPlans hplans plan hplan with hread | hsince
  · have hmem : version ∈ planVersions storedPlans := List.mem_flatMap.mpr ⟨plan, hread, hof⟩
    obtain ⟨position, hposition⟩ := List.getElem?_of_mem hmem
    obtain ⟨all, hall, rfl⟩ := Option.map_eq_some_iff.mp hroots
    have hzip : (version, position) ∈ (planVersions storedPlans).zipIdx :=
      List.mk_mem_zipIdx_iff_getElem?.mpr hposition
    obtain ⟨result, hresult⟩ := exists_eq_some_of_mapM hall hzip
    rcases hcurrent.roots position version result hresult root hlookup with rfl | hsince
    · left
      rw [List.reduceOption_mem_iff]
      exact (mem_of_mapM hall).mpr ⟨(version, position), hzip, hresult⟩
    · exact .inr ⟨root, hsince, fun kind => List.Subset.refl _⟩
  · have hpv : version ∈ planVersions [plan] := by
      rw [planVersions, List.flatMap_singleton]
      exact hof
    obtain ⟨other, hother, _, hfound⟩ := hsince version hpv
    rcases hfound root hlookup with hmem | hsub
    · exact .inr ⟨root, hmem, fun kind => List.Subset.refl _⟩
    · exact .inr ⟨other, hother, hsub⟩

theorem kept_computeActualDeletions
    (hcurrent : ReadsCurrent reads store since) (hcovers : reads.Covers config)
    (hprotects : ∀ root ∈ since,
      (Data.compacting (computeActualDeletions updates (scan config reads))).Protects root) :
    Kept (computeActualDeletions updates (scan config reads)) store := by
  rcases scan_eq_empty_or_reaches config reads with
    hempty | ⟨rootVersions, currentRoot, storedPlans, roots, hreaches⟩
  · have hnone : ∀ kind id v,
        ¬(computeActualDeletions updates (scan config reads)).Deletes kind id v := by
      intro kind id v hdelete
      have hproposes := (deletes_computeActualDeletions hdelete).1
      rw [hempty] at hproposes
      exact hproposes.elim notMem_idsToDelete_empty notMem_versionsToDelete_empty
    have hroots : ∀ version,
        version ∉ (computeActualDeletions updates (scan config reads)).rootsDeleting := by
      intro version hdelete
      have hproposes := (Finset.mem_sdiff.mp hdelete).1
      rw [hempty] at hproposes
      exact notMem_rootVersionsToDelete_empty hproposes
    exact ⟨fun kind id v _ => hnone kind id v, fun _ _ kind id v _ => hnone kind id v, hroots _,
      fun version _ => hroots version⟩
  have hspared : ∀ kind id v, (∀ batch ∈ (grouped config.scanBatchSize.toNat roots).zipIdx,
      Spares config.maxVersions kind currentRoot batch.1 ((reads.ids kind).getD ∅)
        ((reads.versions kind batch.2 id).getD ∅) id v) →
      ¬(computeActualDeletions updates (scan config reads)).Deletes kind id v :=
    fun kind id v hspares hdelete =>
      not_proposes_of_spares hreaches hspares (deletes_computeActualDeletions hdelete).1
  have hversion : ∀ version, version = currentRoot.version ∨ version ∈ planVersions storedPlans →
      version ∉ (computeActualDeletions updates (scan config reads)).rootsDeleting :=
    fun version h hdelete =>
      notMem_rootVersionsToDelete hreaches h (Finset.mem_sdiff.mp hdelete).1
  refine ⟨?_, ?_, ?_, ?_⟩
  · intro kind id v href
    rcases hcurrent.root currentRoot hreaches.readRoot with hread | hsince
    · exact hspared kind id v fun batch _ => .inl (.inl (hread ▸ href))
    · apply (hprotects _ hsince).2 kind id v
      rw [kind_references_ofGroup]
      exact href
  · intro root hroot kind id v href
    rcases hcurrent.planRoot hreaches.readPlans hreaches.readRoots hroot with
      hread | ⟨other, hother, hsub⟩
    · exact hspared kind id v fun batch hbatch =>
        hcovers currentRoot hreaches.readRoot storedPlans hreaches.readPlans roots
          hreaches.readRoots batch hbatch root hread kind (id, v) href
    · exact (hprotects other hother).2 kind id v (hsub kind href)
  · rcases hcurrent.root currentRoot hreaches.readRoot with hread | hsince
    · exact hversion _ (.inl (by rw [hread]))
    · rw [← StoredGroup.version_ofGroup]
      exact (hprotects _ hsince).1
  · intro version hmem
    obtain ⟨plan, hplan, hof⟩ := List.mem_flatMap.mp hmem
    rcases hcurrent.plans storedPlans hreaches.readPlans plan hplan with hread | hsince
    · exact hversion version (.inr (List.mem_flatMap.mpr ⟨plan, hread, hof⟩))
    · have hpv : version ∈ planVersions [plan] := by
        rw [planVersions, List.flatMap_singleton]
        exact hof
      obtain ⟨other, hother, rfl, _⟩ := hsince version hpv
      exact (hprotects other hother).1

theorem State.Inv.receive_scanDone (hinv : s.Inv) (hdata : s.data = .scanning updates)
    (hkeeps : s.KeepsTrack config .scanFinishes) :
    (s.receive config (.scanDone (scan config s.reads))).Inv := by
  have hremaining : s.remaining = ∅ := by
    apply hinv.remaining_eq_empty
    intro blocked hcompacting
    rw [hdata] at hcompacting
    cases hcompacting
  rw [State.receive, hdata]
  by_cases hempty : (scan config s.reads).isEmpty
  · by_cases hrequested : updates.gcRequested
    · have hstarts : s.StartsScan config .scanFinishes := by
        simp [State.StartsScan, hdata, hempty, hrequested]
      have hwritten := hkeeps.written hstarts
      have hwaiting : s.waiting = [] := by rw [State.waiting, hdata]
      rw [hwaiting] at hwritten
      have hscan := hinv.startScan hremaining hwritten
      simpa only [State.receiveScanning, if_pos hempty, if_pos hrequested] using hscan
    · have hrest := hinv.goToRest config hremaining
      simpa only [State.receiveScanning, if_pos hempty, if_neg hrequested] using hrest
  · have hstart : s.compactionStart config .scanFinishes = some updates := by
      simp only [State.compactionStart, hdata, if_neg hempty]
    have hprotects : ∀ root ∈ s.approvedSince,
        (Data.compacting (computeActualDeletions updates (scan config s.reads))).Protects root := by
      intro root hroot
      have hscanning := hinv.protects root hroot
      rw [hdata] at hscanning
      exact hscanning.compacting (hkeeps.tracked updates hstart root hroot)
    have hkept : Kept (computeActualDeletions updates (scan config s.reads)) s.store :=
      kept_computeActualDeletions (hinv.scanning updates hdata) (hkeeps.covered (by rw [hstart]; rfl)) hprotects
    simp only [State.receiveScanning, if_neg hempty]
    refine ⟨hinv.inbox, hinv.requests, hprotects, ?_, ?_, ?_⟩
    · intro d hd
      exact ⟨_, rfl, hd⟩
    · intro _ hscanning
      cases hscanning
    · intro blocked hcompacting
      cases hcompacting
      exact hkept

end Begin

/-! ## The reads of the scan -/

/-- A read returns what the store has. -/
theorem ReadsCurrent.make {reads' : Reads}
    (hcurrent : ReadsCurrent reads store since) {read : Read}
    (hmake : reads.make store read = some reads') : ReadsCurrent reads' store since := by
  cases read with
  | rootVersions =>
    obtain ⟨_, hread⟩ := Option.ite_none_right_eq_some.mp hmake
    cases hread
    exact ⟨hcurrent.root, hcurrent.plans, hcurrent.roots⟩
  | root =>
    obtain ⟨_, hread⟩ := Option.ite_none_right_eq_some.mp hmake
    cases hread
    refine ⟨?_, hcurrent.plans, hcurrent.roots⟩
    intro currentRoot hread
    exact .inl (Option.some.inj hread).symm
  | lazyAll =>
    obtain ⟨_, hread⟩ := Option.ite_none_right_eq_some.mp hmake
    cases hread
    refine ⟨hcurrent.root, ?_, hcurrent.roots⟩
    intro storedPlans hread plan hplan
    cases hread
    exact .inl hplan
  | lazyRootVersion position =>
    simp only [Reads.make, bind, Option.bind_eq_some_iff] at hmake
    obtain ⟨storedPlans, _, version, _, hmake⟩ := hmake
    obtain ⟨_, hread⟩ := Option.ite_none_right_eq_some.mp hmake
    cases hread
    refine ⟨hcurrent.root, hcurrent.plans, ?_⟩
    intro i v result hread found hfound
    dsimp only at hread
    split at hread
    · left
      exact (Option.some.inj hread).symm.trans hfound
    · exact hcurrent.roots i v result hread found hfound
  | ids kind =>
    obtain ⟨_, hread⟩ := Option.ite_none_right_eq_some.mp hmake
    cases hread
    exact ⟨hcurrent.root, hcurrent.plans, hcurrent.roots⟩
  | versions kind batch id =>
    obtain ⟨_, hread⟩ := Option.ite_none_right_eq_some.mp hmake
    cases hread
    exact ⟨hcurrent.root, hcurrent.plans, hcurrent.roots⟩

/-! ## The writes -/

section Write

variable {reads : Reads} {store : Store} {since : List StoredGroup} {entity : Entity}

theorem Store.lookup_rootVersions_write
    (h : (store.write entity).rootVersions.lookup version = some found) :
    found ∈ entity.roots ∨ store.rootVersions.lookup version = some found := by
  cases entity with
  | runSpec kind id v current => exact .inr h
  | plan plan => exact .inr h
  | root group current =>
    rcases Dict.lookup_insert_eq_some.mp h with ⟨_, rfl⟩ | ⟨_, hold⟩
    · exact .inl (List.mem_singleton_self _)
    · exact .inr hold

theorem Store.mem_plans_write {plan : StoredPlan} (h : plan ∈ (store.write entity).plans) :
    plan ∈ store.plans ∨ ∃ p, entity = .plan p ∧ plan = p.stored := by
  cases entity with
  | runSpec kind id v current => exact .inl h
  | root group current => exact .inl h
  | plan p =>
    rcases List.mem_cons.mp h with rfl | hold
    · exact .inr ⟨p, rfl, rfl⟩
    · exact .inl (List.mem_filter.mp hold).1

theorem Store.currentRoot_write (store : Store) (entity : Entity) :
    (store.write entity).currentRoot = store.currentRoot ∨
      StoredGroup.ofGroup (store.write entity).currentRoot ∈ entity.roots := by
  cases entity with
  | runSpec kind id v current => exact .inl rfl
  | plan plan => exact .inl rfl
  | root group current =>
    cases current with
    | false => exact .inl rfl
    | true => exact .inr (List.mem_singleton_self _)

theorem DeploymentPlan.exists_root_of_mem_planVersions {plan : DeploymentPlan}
    (h : version ∈ planVersions [plan.stored]) :
    ∃ root ∈ (Entity.plan plan).roots, root.version = version := by
  rw [planVersions, List.flatMap_singleton] at h
  rcases List.mem_pair.mp h with rfl | rfl
  · exact ⟨_, List.mem_pair.mpr (.inl rfl), StoredGroup.version_ofGroup plan.original⟩
  · exact ⟨_, List.mem_pair.mpr (.inr rfl), StoredGroup.version_ofGroup plan.target⟩

/-- What the scan has read stays current, when what is written has been approved since. -/
theorem ReadsCurrent.write (hcurrent : ReadsCurrent reads store since)
    (hroots : entity.roots ⊆ since)
    (hplan : ∀ plan, entity = .plan plan → ∀ root ∈ entity.roots,
      ∀ found ∈ store.rootVersions.lookup root.version, ∀ kind : Kind,
        kind.references found ⊆ kind.references root) :
    ReadsCurrent reads (store.write entity) since := by
  refine ⟨?_, ?_, ?_⟩
  · intro currentRoot hread
    rcases Store.currentRoot_write store entity with hsame | hwritten
    · rw [hsame]
      exact hcurrent.root currentRoot hread
    · exact .inr (hroots hwritten)
  · intro storedPlans hread plan hmem
    rcases Store.mem_plans_write hmem with hold | ⟨p, rfl, rfl⟩
    · rcases hcurrent.plans storedPlans hread plan hold with hplans | hsince
      · exact .inl hplans
      right
      intro version hversion
      obtain ⟨root, hroot, hv, hfound⟩ := hsince version hversion
      refine ⟨root, hroot, hv, fun found hlookup => ?_⟩
      rcases Store.lookup_rootVersions_write hlookup with hnew | hbefore
      · exact .inl (hroots hnew)
      · exact hfound found hbefore
    · right
      intro version hversion
      obtain ⟨root, hroot, rfl⟩ := DeploymentPlan.exists_root_of_mem_planVersions hversion
      exact ⟨root, hroots hroot, rfl, fun found hlookup => .inr (hplan p rfl root hroot found hlookup)⟩
  · intro position version result hread found hlookup
    rcases Store.lookup_rootVersions_write hlookup with hnew | hbefore
    · exact .inr (hroots hnew)
    · exact hcurrent.roots position version result hread found hbefore

/-- Nothing needed is being deleted after a write either, when the roots of what is written
are protected. -/
theorem Kept.write (hkept : Kept blocked store)
    (hprotects : ∀ root ∈ entity.roots, (Data.compacting blocked).Protects root)
    (hplan : ∀ plan, entity = .plan plan → ∀ root ∈ entity.roots,
      ∀ found ∈ store.rootVersions.lookup root.version, ∀ kind : Kind,
        kind.references found ⊆ kind.references root) :
    Kept blocked (store.write entity) := by
  refine ⟨?_, ?_, ?_, ?_⟩
  · intro kind id v href
    rcases Store.currentRoot_write store entity with hsame | hwritten
    · rw [hsame] at href
      exact hkept.currentRoot kind id v href
    · apply (hprotects _ hwritten).2 kind id v
      rw [kind_references_ofGroup]
      exact href
  · intro root hroot kind id v href
    obtain ⟨version, hversion, hlookup⟩ := List.mem_filterMap.mp hroot
    rcases Store.lookup_rootVersions_write hlookup with hnew | hbefore
    · exact (hprotects root hnew).2 kind id v href
    obtain ⟨plan, hmem, hof⟩ := List.mem_flatMap.mp hversion
    rcases Store.mem_plans_write hmem with hold | ⟨p, rfl, rfl⟩
    · apply hkept.planRoots root _ kind id v href
      exact List.mem_filterMap.mpr ⟨version, List.mem_flatMap.mpr ⟨plan, hold, hof⟩, hbefore⟩
    · have hpv : version ∈ GcActor.planVersions [p.stored] := List.mem_flatMap.mpr
        ⟨p.stored, List.mem_singleton_self _, hof⟩
      obtain ⟨other, hother, rfl⟩ := DeploymentPlan.exists_root_of_mem_planVersions hpv
      exact (hprotects other hother).2 kind id v (hplan p rfl other hother root hbefore kind href)
  · rcases Store.currentRoot_write store entity with hsame | hwritten
    · rw [hsame]
      exact hkept.currentVersion
    · rw [← StoredGroup.version_ofGroup]
      exact (hprotects _ hwritten).1
  · intro version hversion
    obtain ⟨plan, hmem, hof⟩ := List.mem_flatMap.mp hversion
    rcases Store.mem_plans_write hmem with hold | ⟨p, rfl, rfl⟩
    · exact hkept.planVersions version (List.mem_flatMap.mpr ⟨plan, hold, hof⟩)
    · have hpv : version ∈ GcActor.planVersions [p.stored] := List.mem_flatMap.mpr
        ⟨p.stored, List.mem_singleton_self _, hof⟩
      obtain ⟨other, hother, rfl⟩ := DeploymentPlan.exists_root_of_mem_planVersions hpv
      exact (hprotects other hother).1

end Write

/-! ## The deletions -/

section Delete

variable {store : Store} {d : Deletion}

theorem Store.mem_runSpecs_delete (hid : d ≠ .id kind id) (hversion : d ≠ .version kind id v)
    (h : v ∈ (store.runSpecs kind).get id) : v ∈ ((store.delete d).runSpecs kind).get id := by
  cases d with
  | root version => exact h
  | id kind' id' =>
    show v ∈ SetMap.get (if kind = kind' then AList.erase id' (store.runSpecs kind)
      else store.runSpecs kind) id
    split
    · rename_i hkind
      have hne : id ≠ id' := by
        rintro rfl
        exact hid (by rw [hkind])
      rw [SetMap.get, AList.lookup_erase_ne hne]
      exact h
    · exact h
  | version kind' id' v' =>
    cases hlookup : (store.runSpecs kind).lookup id' with
    | none => simpa only [Store.delete, hlookup] using h
    | some versions =>
      simp only [Store.delete, hlookup]
      split
      · rename_i hkind
        rw [SetMap.get_insert]
        split
        · rename_i hsame
          subst hkind hsame
          rw [SetMap.get_of_lookup hlookup] at h
          rw [Finset.mem_sdiff, Finset.mem_singleton]
          refine ⟨h, ?_⟩
          rintro rfl
          exact hversion rfl
        · exact h
      · exact h

theorem Store.mem_rootVersions_delete (hroot : d ≠ .root version)
    (h : version ∈ store.rootVersions) : version ∈ (store.delete d).rootVersions := by
  cases d with
  | id kind id => exact h
  | version kind id v => exact h
  | root v =>
    apply AList.mem_erase.mpr
    refine ⟨?_, h⟩
    rintro rfl
    exact hroot rfl

theorem Store.lookup_rootVersions_delete
    (h : (store.delete d).rootVersions.lookup version = some found) :
    store.rootVersions.lookup version = some found := by
  cases d with
  | id kind id => exact h
  | version kind id v => exact h
  | root v => exact (Dict.lookup_erase_eq_some.mp h).2

theorem Store.plans_delete : (store.delete d).plans = store.plans := by
  cases d <;> rfl

theorem Store.currentRoot_delete : (store.delete d).currentRoot = store.currentRoot := by
  cases d <;> rfl

end Delete

theorem Kept.of_subset {store' : Store} (hkept : Kept blocked store)
    (hroot : store'.currentRoot = store.currentRoot) (hplans : store'.plans ⊆ store.plans)
    (hlookup : ∀ version found, store'.rootVersions.lookup version = some found →
      store.rootVersions.lookup version = some found) : Kept blocked store' := by
  have hversions : ∀ version ∈ GcActor.planVersions store'.plans,
      version ∈ GcActor.planVersions store.plans := by
    intro version hversion
    obtain ⟨plan, hplan, hof⟩ := List.mem_flatMap.mp hversion
    exact List.mem_flatMap.mpr ⟨plan, hplans hplan, hof⟩
  refine ⟨?_, ?_, ?_, ?_⟩
  · rw [hroot]
    exact hkept.currentRoot
  · intro root hmem
    obtain ⟨version, hversion, hfound⟩ := List.mem_filterMap.mp hmem
    exact hkept.planRoots root
      (List.mem_filterMap.mpr ⟨version, hversions version hversion, hlookup version root hfound⟩)
  · rw [hroot]
    exact hkept.currentVersion
  · intro version hversion
    exact hkept.planVersions version (hversions version hversion)

/-! ## Every step -/

namespace State

variable {config : Config} {s : State}

theorem inv_initial (h : Initial config s) : s.Inv := by
  obtain ⟨hdata, hinbox, hremaining, hrequests, hsince⟩ := h
  refine ⟨?_, ?_, ?_, ?_, ?_, ?_⟩
  · rw [hinbox]
    exact fun message hmessage => absurd hmessage List.not_mem_nil
  · rw [hrequests]
    exact fun request hrequest => absurd hrequest List.not_mem_nil
  · rw [hsince]
    exact fun root hroot => absurd hroot List.not_mem_nil
  · rw [hremaining]
    exact fun d hd => absurd hd (Finset.notMem_empty d)
  · intro updates hscanning
    rw [hdata] at hscanning
    split at hscanning <;> cases hscanning
  · intro blocked hcompacting
    rw [hdata] at hcompacting
    split at hcompacting <;> cases hcompacting

theorem messageFits_request {entity : Entity} {requests : List Request} :
    MessageFits { s with requests := requests ++ [.make entity] }
      (entity.message ⟨requests.length, 0⟩) := by
  have hat : (requests ++ [Request.make entity])[requests.length]? = some (.make entity) :=
    List.getElem?_concat_length
  have hparts : partRoots { s with requests := requests ++ [.make entity] } ⟨requests.length, 0⟩ =
      some entity.roots := by
    simp only [partRoots, hat]
    rfl
  cases entity with
  | runSpec kind id v current => cases kind <;> exact hparts
  | root root current => exact hparts
  | plan plan => exact ⟨hat, rfl⟩

/-- A new request waits for its promise. -/
theorem Inv.addRequest (hinv : s.Inv) (entity : Entity) :
    Inv { s with requests := s.requests ++ [.make entity] } := by
  refine ⟨?_, ?_, hinv.protects, hinv.remaining, hinv.scanning, hinv.compacting⟩
  · intro message hmessage
    obtain ⟨root, promise, rfl, hparts⟩ := hinv.inbox message hmessage
    refine ⟨root, promise, rfl, ?_⟩
    obtain ⟨request, hrequest, _⟩ := Option.bind_eq_some_iff.mp hparts
    obtain ⟨hlt, _⟩ := List.getElem?_eq_some_iff.mp hrequest
    simp only [partRoots, List.getElem?_append_left hlt]
    exact hparts
  · intro request hmem
    rcases List.mem_append.mp hmem with hold | hnew
    · exact hinv.requests request hold
    · rw [List.mem_singleton.mp hnew]
      exact Request.sound_make entity _

theorem protects_of_checked (hblocks : ¬blocked.blocksRoot root)
    (h : ∀ approved ∈ some (blocked, root), ∀ kind : Kind, ∀ ref ∈ kind.references approved.2,
      (kind = .app ∧ Tracked approved.2 ref.1 ref.2) ∨ ¬approved.1.Deletes kind ref.1 ref.2) :
    (Data.compacting blocked).Protects root :=
  protects_of_not_blocksRoot hblocks fun kind ref href => h (blocked, root) rfl kind ref href

theorem Inv.request (hinv : s.Inv) {entity : Entity} (hkeeps : s.KeepsTrack config (.request entity)) :
    (s.request config entity).Inv := by
  apply (hinv.addRequest entity).receive messageFits_request
  · intro _ hmessage
    cases entity with
    | runSpec kind id v current => cases kind <;> cases hmessage
    | root root current => cases hmessage
    | plan plan => cases hmessage
  · intro blocked root promise hdata hmessage hblocks
    cases entity with
    | runSpec kind id v current => cases kind <;> cases hmessage
    | plan plan => cases hmessage
    | root group current =>
      cases hmessage
      have happroved : s.rootApproved (.request (.root group current)) =
          some (blocked, StoredGroup.ofGroup group) := by
        have hdata' : s.data = .compacting blocked := hdata
        simp only [rootApproved, hdata', if_neg hblocks]
      exact protects_of_checked hblocks (happroved ▸ hkeeps.checked)

theorem Inv.deliver (hinv : s.Inv) {message : Message} {rest : List Message}
    (hinbox : s.selfInbox = message :: rest) (hkeeps : s.KeepsTrack config .deliver) :
    (State.receive config { s with selfInbox := rest } message).Inv := by
  obtain ⟨root, promise, rfl, hparts⟩ := hinv.inbox message (hinbox ▸ List.mem_cons_self)
  have hrest : Inv { s with selfInbox := rest } := by
    refine ⟨?_, hinv.requests, hinv.protects, hinv.remaining, hinv.scanning, hinv.compacting⟩
    intro message hmessage
    exact hinv.inbox message (hinbox ▸ List.mem_cons_of_mem _ hmessage)
  have hfits : MessageFits { s with selfInbox := rest } (.storeRoot root promise) := hparts
  apply hrest.receive hfits
  · intro _ hmessage
    cases hmessage
  · intro blocked root' promise' hdata hmessage hblocks
    cases hmessage
    have happroved : s.rootApproved .deliver = some (blocked, root) := by
      have hdata' : s.data = .compacting blocked := hdata
      simp only [rootApproved, hdata', hinbox, if_neg hblocks]
    exact protects_of_checked hblocks (happroved ▸ hkeeps.checked)

theorem Inv.read (hinv : s.Inv) {read : Read}
    (hmake : s.reads.make s.store read = some reads) : Inv { s with reads := reads } where
  inbox := hinv.inbox
  requests := hinv.requests
  protects := hinv.protects
  remaining := hinv.remaining
  scanning := fun updates hdata => (hinv.scanning updates hdata).make hmake
  compacting := hinv.compacting

/-- A write makes a request written, and the store what it is then. -/
theorem Inv.write (hinv : s.Inv) {i : ℕ} {request : Request} (hrequest : s.requests[i]? = some request)
    (happroved : request.approved) (hnot : ¬request.written)
    (hplan : s.data ≠ .resting → s.data ≠ .readyForGc → ∀ plan, request.entity = .plan plan →
      ∀ root ∈ request.entity.roots, ∀ found ∈ s.store.rootVersions.lookup root.version,
        ∀ kind : Kind, kind.references found ⊆ kind.references root) :
    Inv { s with
      store := s.store.write request.entity
      requests := s.requests.set i { request with written := true } } := by
  have hsound : request.Sound s.approvedSince := hinv.requests request (List.mem_of_getElem? hrequest)
  have hroots : request.entity.roots ⊆ s.approvedSince := hsound.roots_subset happroved hnot
  refine ⟨?_, ?_, hinv.protects, hinv.remaining, ?_, ?_⟩
  · intro message hmessage
    obtain ⟨root, promise, rfl, hparts⟩ := hinv.inbox message hmessage
    refine ⟨root, promise, rfl, ?_⟩
    by_cases hsame : i = promise.request
    · subst hsame
      obtain ⟨hlt, _⟩ := List.getElem?_eq_some_iff.mp hrequest
      rw [partRoots, hrequest] at hparts
      simp only [partRoots, List.getElem?_set_self hlt]
      exact hparts
    · simp only [partRoots, List.getElem?_set_ne hsame]
      exact hparts
  · intro other hmem
    rcases List.mem_or_eq_of_mem_set hmem with hold | rfl
    · exact hinv.requests other hold
    · exact ⟨hsound.roots, fun _ => happroved, fun h => absurd rfl h⟩
  · intro updates hdata
    have hscanning : s.data = .scanning updates := hdata
    apply (hinv.scanning updates hscanning).write hroots
    apply hplan <;> rw [hscanning] <;> simp
  · intro blocked hdata
    have hcompacting : s.data = .compacting blocked := hdata
    apply (hinv.compacting blocked hcompacting).write
    · intro root hroot
      rw [← hcompacting]
      exact hinv.protects root (hroots hroot)
    · apply hplan <;> rw [hcompacting] <;> simp

/-- A plan that is gone needs nothing any more. -/
theorem Inv.deletePlan (hinv : s.Inv) (id : String) :
    Inv { s with store := { s.store with plans := s.store.plans.filter (·.id ≠ id) } } := by
  refine ⟨hinv.inbox, hinv.requests, hinv.protects, hinv.remaining, ?_, ?_⟩
  · intro updates hdata
    have hcurrent := hinv.scanning updates hdata
    refine ⟨hcurrent.root, ?_, hcurrent.roots⟩
    intro storedPlans hread plan hmem
    exact hcurrent.plans storedPlans hread plan (List.mem_filter.mp hmem).1
  · intro blocked hdata
    exact (hinv.compacting blocked hdata).of_subset rfl
      (fun plan hmem => (List.mem_filter.mp hmem).1) fun _ _ h => h

theorem Inv.delete (hinv : s.Inv) {d : Deletion} (hd : d ∈ s.remaining) :
    Inv { s with store := s.store.delete d, remaining := s.remaining.erase d } := by
  obtain ⟨blocked, hdata, _⟩ := hinv.remaining d hd
  refine ⟨hinv.inbox, hinv.requests, hinv.protects, ?_, ?_, ?_⟩
  · intro other hother
    exact hinv.remaining other (Finset.mem_of_mem_erase hother)
  · intro updates hscanning
    have hscanning' : s.data = .scanning updates := hscanning
    rw [hdata] at hscanning'
    cases hscanning'
  · intro after hafter
    have hkept := hinv.compacting after hafter
    exact hkept.of_subset Store.currentRoot_delete (by rw [Store.plans_delete]; exact List.Subset.refl _)
      fun _ _ => Store.lookup_rootVersions_delete

theorem planWritten_eq_some {i : ℕ} {plan : DeploymentPlan} {parts : List Part} {written : Bool}
    (hrequest : s.requests[i]? = some ⟨.plan plan, parts, written⟩) (hresting : s.data ≠ .resting)
    (hready : s.data ≠ .readyForGc) : s.planWritten (.write i) = some plan := by
  cases hdata : s.data with
  | resting => exact absurd hdata hresting
  | readyForGc => exact absurd hdata hready
  | scanning updates => simp only [planWritten, hdata, hrequest]
  | compacting blocked => simp only [planWritten, hdata, hrequest]

/-- Every step that keeps track keeps the invariant. -/
theorem inv_step {s' : State} {event : Event} (hinv : s.Inv) (hkeeps : s.KeepsTrack config event)
    (hstep : s.step config event = some s') : s'.Inv := by
  cases event with
  | runGC =>
    cases hstep
    have hfits : s.MessageFits .runGC := trivial
    apply hinv.receive hfits
    · intro hdata _
      have hstarts : s.StartsScan config .runGC := by simp [StartsScan, hdata]
      have hwaiting : s.waiting = [] := by rw [waiting, hdata]
      have hwritten := hkeeps.written hstarts
      rw [hwaiting] at hwritten
      exact hwritten
    · intro blocked root promise _ hmessage
      cases hmessage
  | wakeUp =>
    cases hstep
    have hfits : s.MessageFits .wakeUp := trivial
    apply hinv.receive hfits
    · intro _ hmessage
      cases hmessage
    · intro blocked root promise _ hmessage
      cases hmessage
  | request entity =>
    cases hstep
    exact hinv.request hkeeps
  | deliver =>
    cases hinbox : s.selfInbox with
    | nil => simp [step, hinbox] at hstep
    | cons message rest =>
      simp only [step, hinbox, Option.some.injEq] at hstep
      subst hstep
      exact hinv.deliver hinbox hkeeps
  | read read =>
    cases hdata : s.data with
    | resting => simp [step, hdata] at hstep
    | readyForGc => simp [step, hdata] at hstep
    | compacting blocked => simp [step, hdata] at hstep
    | scanning updates =>
      simp only [step, hdata] at hstep
      obtain ⟨reads, hmake, rfl⟩ := Option.map_eq_some_iff.mp hstep
      rw [← hdata]
      exact hinv.read hmake
  | scanFinishes =>
    cases hdata : s.data with
    | resting => simp [step, hdata] at hstep
    | readyForGc => simp [step, hdata] at hstep
    | compacting blocked => simp [step, hdata] at hstep
    | scanning updates =>
      simp only [step, hdata, Option.some.injEq] at hstep
      subst hstep
      exact hinv.receive_scanDone hdata hkeeps
  | delete d =>
    obtain ⟨⟨hd, _⟩, hsome⟩ := Option.ite_none_right_eq_some.mp hstep
    cases hsome
    exact hinv.delete hd
  | compactionEnds =>
    cases hdata : s.data with
    | resting => simp [step, hdata] at hstep
    | readyForGc => simp [step, hdata] at hstep
    | scanning updates => simp [step, hdata] at hstep
    | compacting blocked =>
      simp only [step, hdata, Option.some.injEq] at hstep
      subst hstep
      rw [← hdata]
      apply hinv.receive_compactDone hdata
      intro hrequested
      have hstarts : s.StartsScan config .compactionEnds := by simp [StartsScan, hdata, hrequested]
      have hwaiting : s.waiting = blocked.promises := by rw [waiting, hdata]
      rw [← hwaiting]
      exact hkeeps.written hstarts
  | write i =>
    cases hrequest : s.requests[i]? with
    | none => simp [step, hrequest] at hstep
    | some request =>
      simp only [step, hrequest] at hstep
      obtain ⟨hready, hsome⟩ := Option.ite_none_right_eq_some.mp hstep
      cases hsome
      rw [Bool.and_eq_true, Bool.not_eq_true'] at hready
      apply hinv.write hrequest hready.1 (by simp [hready.2])
      intro hresting hrest plan hentity root hroot found hfound
      obtain ⟨entity, parts, written⟩ := request
      obtain rfl : entity = .plan plan := hentity
      exact hkeeps.planRoots plan (planWritten_eq_some hrequest hresting hrest) root hroot found hfound
  | deletePlan id =>
    cases hstep
    exact hinv.deletePlan id

/-! ## What is deleted -/

/-- The run spec is referenced by the current root, by a root of a stored plan, or by a root
whose request was approved since the scan began. -/
def Referenced (s : State) (kind : Kind) (id : AbsolutePathId) (v : Timestamp) : Prop :=
  (id, v) ∈ kind.transitive s.store.currentRoot ∨
    (∃ root ∈ s.store.planRoots, (id, v) ∈ kind.references root) ∨
    ∃ root ∈ s.approvedSince, (id, v) ∈ kind.references root

/-- The root version is the current one, one of a stored plan, or one whose request was
approved since the scan began. -/
def RootReferenced (s : State) (version : Timestamp) : Prop :=
  version = s.store.currentRoot.version ∨ version ∈ planVersions s.store.plans ∨
    ∃ root ∈ s.approvedSince, root.version = version

/-- No deletion that can happen now takes away what is referenced. -/
def DeletesUnreferenced (config : Config) (s : State) : Prop :=
  ∀ d s', s.step config (.delete d) = some s' →
    (∀ kind id v, s.Referenced kind id v → v ∈ (s.store.runSpecs kind).get id →
      v ∈ (s'.store.runSpecs kind).get id) ∧
    ∀ version, s.RootReferenced version → version ∈ s.store.rootVersions →
      version ∈ s'.store.rootVersions

theorem Inv.not_deletes (hinv : s.Inv) (hdata : s.data = .compacting blocked)
    (h : s.Referenced kind id v) : ¬blocked.Deletes kind id v := by
  have hkept := hinv.compacting blocked hdata
  rcases h with hcurrent | ⟨root, hroot, href⟩ | ⟨root, hroot, href⟩
  · exact hkept.currentRoot kind id v hcurrent
  · exact hkept.planRoots root hroot kind id v href
  · have hprotects := hinv.protects root hroot
    rw [hdata] at hprotects
    exact hprotects.2 kind id v href

theorem Inv.notMem_rootsDeleting (hinv : s.Inv)
    (hdata : s.data = .compacting blocked) (h : s.RootReferenced version) :
    version ∉ blocked.rootsDeleting := by
  have hkept := hinv.compacting blocked hdata
  rcases h with rfl | hplan | ⟨root, hroot, rfl⟩
  · exact hkept.currentVersion
  · exact hkept.planVersions version hplan
  · have hprotects := hinv.protects root hroot
    rw [hdata] at hprotects
    exact hprotects.1

/-- **In every run whose steps keep track, no deletion takes away what is referenced.** -/
theorem deletesUnreferenced_of_keepsTrack
    (h : (collector config).ReachableIf (KeepsTrack config) s) : s.DeletesUnreferenced config := by
  have hinv : s.Inv := h.invariant (fun _ => inv_initial) fun _ _ _ => inv_step
  intro d s' hstep
  obtain ⟨⟨hd, _⟩, hsome⟩ := Option.ite_none_right_eq_some.mp hstep
  cases hsome
  obtain ⟨blocked, hdata, hdeletion⟩ := hinv.remaining d hd
  constructor
  · intro kind id v href hstored
    have hnot := hinv.not_deletes hdata href
    apply Store.mem_runSpecs_delete _ _ hstored
    · rintro rfl
      rcases mem_deletions hdeletion with ⟨_, _, heq, hmem⟩ | ⟨_, _, _, heq, _⟩ | ⟨_, heq, _⟩
      · cases heq
        exact hnot (.inl hmem)
      · cases heq
      · cases heq
    · rintro rfl
      rcases mem_deletions hdeletion with ⟨_, _, heq, _⟩ | ⟨_, _, _, heq, hmem⟩ | ⟨_, heq, _⟩
      · cases heq
      · cases heq
        exact hnot (.inr hmem)
      · cases heq
  · intro version href hstored
    apply Store.mem_rootVersions_delete _ hstored
    rintro rfl
    rcases mem_deletions hdeletion with ⟨_, _, heq, _⟩ | ⟨_, _, _, heq, _⟩ | ⟨_, heq, hmem⟩
    · cases heq
    · cases heq
    · cases heq
      exact hinv.notMem_rootsDeleting hdata href hmem

/-! ### A run that keeps track -/

section Decidable

variable (kind : Kind) (currentRoot : RootGroup) (roots : List StoredGroup) (id : AbsolutePathId)
  (v : Timestamp)

instance : Decidable (Listed kind currentRoot roots id v) := inferInstanceAs (Decidable (_ ∨ _))

instance : Decidable (∃ w, Listed kind currentRoot roots id w) :=
  decidable_of_iff _ mem_keys_idsInUse

instance : Decidable (∀ w, ¬Listed kind currentRoot roots id w) := decidable_of_iff _ not_exists

instance (maxVersions : ℤ) (allIds : Finset AbsolutePathId) (versions : Finset Timestamp) :
    Decidable (Spares maxVersions kind currentRoot roots allIds versions id v) :=
  inferInstanceAs (Decidable (_ ∨ _ ∨ _))

instance (updates : UpdatedEntities) : Decidable (updates.Records kind id v) :=
  inferInstanceAs (Decidable (_ ∈ _))

instance (done : ScanDone) : Decidable (done.Proposes kind id v) :=
  inferInstanceAs (Decidable (_ ∨ _))

instance (blocked : BlockedEntities) : Decidable (blocked.Deletes kind id v) :=
  inferInstanceAs (Decidable (_ ∨ _))

instance (config : Config) (reads : Reads) : Decidable (reads.Covers config) :=
  inferInstanceAs (Decidable (∀ currentRoot ∈ reads.root, ∀ storedPlans ∈ reads.lazyAll,
    ∀ roots ∈ rootsInUse reads storedPlans,
      ∀ batch ∈ (grouped config.scanBatchSize.toNat roots).zipIdx, ∀ root ∈ roots, ∀ kind : Kind,
        ∀ ref ∈ kind.references root,
          Spares config.maxVersions kind currentRoot batch.1 ((reads.ids kind).getD ∅)
            ((reads.versions kind batch.2 ref.1).getD ∅) ref.1 ref.2))

instance (config : Config) (s : State) (event : Event) : Decidable (s.KeepsTrack config event) :=
  decidable_of_iff (_ ∧ _ ∧ _ ∧ _ ∧ _)
    ⟨fun ⟨h₁, h₂, h₃, h₄, h₅⟩ => ⟨h₁, h₂, h₃, h₄, h₅⟩, fun ⟨h₁, h₂, h₃, h₄, h₅⟩ => ⟨h₁, h₂, h₃, h₄, h₅⟩⟩

end Decidable


/-- A collector without a cleaning interval that has just been started. -/
def started (store : Store) : State where
  data := .readyForGc
  selfInbox := []
  reads := .none
  remaining := ∅
  requests := []
  store := store
  approvedSince := []

theorem initial_started (store : Store) : Initial Store.twoVersions (started store) :=
  ⟨rfl, rfl, rfl, rfl, rfl⟩

/-- The deployment `removal` removes the app `/x` of the second root; nobody needs the first
root and the app `/y`. -/
def spareStore : Store where
  rootVersions := Dict.insertAll ∅
    [(⟨1⟩, Store.storedGroup [] [] [] ⟨1⟩), (⟨2⟩, Store.storedGroup [] [(⟨["x"]⟩, ⟨2⟩)] [] ⟨2⟩),
      (⟨3⟩, Store.storedGroup [] [] [] ⟨3⟩)]
  currentRoot := Group.empty .root none ⟨3⟩
  plans := [⟨"removal", ⟨2⟩, ⟨3⟩, ⟨3⟩⟩]
  runSpecs := fun kind =>
    match kind with
    | .app => Dict.insertAll ∅ [(⟨["x"]⟩, {⟨2⟩}), (⟨["y"]⟩, {⟨1⟩})]
    | .pod => ∅

/-- The scan of a store with two plan roots, all its reads in order. -/
def scanReads (ids : List AbsolutePathId) : List Event :=
  [.runGC, .read .rootVersions, .read .root, .read .lazyAll, .read (.lazyRootVersion 0),
    .read (.lazyRootVersion 1), .read (.ids .app), .read (.ids .pod)] ++
    ids.map fun id => .read (.versions .app 0 id)

/-- A new root is approved during the scan and written during the compaction, which has
deleted the app `/y` and not yet the first root. -/
def sparingRun : List Event :=
  scanReads [⟨["x"]⟩] ++ [.request (.root (Group.empty .root none ⟨4⟩) true), .scanFinishes,
    .write 0, .delete (.id .app ⟨["y"]⟩)]

theorem sparingRun_deletesUnreferenced :
    ∃ s, (collector Store.twoVersions).run (started spareStore) sparingRun = some s ∧
      s.remaining = {.root ⟨1⟩} ∧ s.DeletesUnreferenced Store.twoVersions := by
  have hif : (((collector Store.twoVersions).runIf (KeepsTrack Store.twoVersions)
      (started spareStore) sparingRun).map fun s => decide (s.remaining = {.root ⟨1⟩})) =
        some true := by
    decide +kernel
  obtain ⟨s, hrun, hremaining⟩ := Option.map_eq_some_iff.mp hif
  refine ⟨s, ?_, of_decide_eq_true hremaining, deletesUnreferenced_of_keepsTrack
    (Machine.reachableIf_of_runIf _ (.init (initial_started spareStore)) hrun)⟩
  exact Machine.run_of_runIf hrun

/-! ### A run that loses track -/

instance (s : State) (kind : Kind) (id : AbsolutePathId) (v : Timestamp) :
    Decidable (s.Referenced kind id v) :=
  inferInstanceAs (Decidable (_ ∨ _ ∨ _))

/-- The scan does not see the app two levels below the root of the plan. -/
def removalRun : List Event := scanReads [] ++ [.scanFinishes]

/-- Not every deletion in every run is one of something that nobody references. -/
theorem not_forall_reachable_deletesUnreferenced :
    ¬∀ config s, (collector config).Reachable s → s.DeletesUnreferenced config := by
  intro hall
  have hrun : (((collector Store.twoVersions).run (started Store.removalStore) removalRun).bind
      fun s => (s.step Store.twoVersions (.delete (.id .app ⟨["a", "b", "x"]⟩))).map fun s' =>
        decide (s.Referenced .app ⟨["a", "b", "x"]⟩ ⟨2⟩ ∧
          ⟨2⟩ ∈ (s.store.runSpecs .app).get ⟨["a", "b", "x"]⟩ ∧
          ⟨2⟩ ∉ (s'.store.runSpecs .app).get ⟨["a", "b", "x"]⟩)) = some true := by
    decide +kernel
  obtain ⟨s, hreached, hstep⟩ := Option.bind_eq_some_iff.mp hrun
  obtain ⟨s', hdelete, hlost⟩ := Option.map_eq_some_iff.mp hstep
  obtain ⟨href, hstored, hgone⟩ := of_decide_eq_true hlost
  have hreachable : (collector Store.twoVersions).Reachable s :=
    Machine.reachableIf_of_runIf _ (.init (initial_started Store.removalStore)) hreached
  exact hgone ((hall _ s hreachable _ s' hdelete).1 _ _ _ href hstored)

end State

end Marathon.Storage.GcActor
