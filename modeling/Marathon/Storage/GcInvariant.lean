import Marathon.Storage.GcActor

/-!
# What holds in every run of the collector

The invariant of the collector and the condition on the steps under which it is kept. The
roots approved since the scan began are protected: while scanning by what the updates
record, while compacting because nothing of them is being deleted.
-/

namespace Marathon.Storage.GcActor

open Lib

/-! ## What is recorded, proposed and deleted -/

/-- The run spec is recorded as stored since the scan began. -/
def UpdatedEntities.Records (updates : UpdatedEntities) (kind : Kind) (id : AbsolutePathId)
    (v : Timestamp) : Prop :=
  v ∈ (updates.versionsStored kind).get id

def ScanDone.Proposes (done : ScanDone) (kind : Kind) (id : AbsolutePathId) (v : Timestamp) :
    Prop :=
  id ∈ done.idsToDelete kind ∨ v ∈ (done.versionsToDelete kind).get id

def BlockedEntities.Deletes (blocked : BlockedEntities) (kind : Kind) (id : AbsolutePathId)
    (v : Timestamp) : Prop :=
  id ∈ blocked.idsDeleting kind ∨ v ∈ (blocked.versionsDeleting kind).get id

variable {id : AbsolutePathId} {v : Timestamp} {updates : UpdatedEntities}
  {blocked : BlockedEntities} {root : StoredGroup}

theorem mem_get_versionsToActuallyDelete {proposed stored : SetMap AbsolutePathId Timestamp}
    (h : v ∈ (versionsToActuallyDelete proposed stored).get id) :
    v ∈ proposed.get id ∧ v ∉ stored.get id := by
  rw [versionsToActuallyDelete, SetMap.get, Dict.lookup_mapWithKey] at h
  rw [SetMap.get, SetMap.get]
  cases hproposed : proposed.lookup id with
  | none => simp [hproposed] at h
  | some versions =>
    cases hstored : stored.lookup id with
    | none => simpa [hproposed, hstored] using h
    | some versionsStored => simpa [hproposed, hstored] using h

theorem mem_sdiff_stored {proposed stored : Finset AbsolutePathId}
    {versions : SetMap AbsolutePathId Timestamp} (v : Timestamp)
    (h : id ∈ proposed \ (stored ∪ versions.keys.toFinset)) :
    id ∈ proposed ∧ v ∉ versions.get id := by
  rw [Finset.mem_sdiff, Finset.mem_union, not_or, List.mem_toFinset, ← AList.mem_keys] at h
  refine ⟨h.1, ?_⟩
  rw [SetMap.get, AList.lookup_eq_none.mpr h.2.2]
  exact Finset.notMem_empty v

/-- What is deleted of one kind: the proposals without what is recorded. -/
theorem deletes_computeActualDeletions {done : ScanDone} {kind : Kind}
    (h : (computeActualDeletions updates done).Deletes kind id v) :
    done.Proposes kind id v ∧ ¬updates.Records kind id v := by
  cases kind with
  | app =>
    rcases h with hid | hv
    · exact (mem_sdiff_stored v hid).imp_left .inl
    · exact (mem_get_versionsToActuallyDelete hv).imp_left .inr
  | pod =>
    rcases h with hid | hv
    · exact (mem_sdiff_stored v hid).imp_left .inl
    · exact (mem_get_versionsToActuallyDelete hv).imp_left .inr

theorem mem_deletionsOf {kind : Kind} {d : Deletion} (h : d ∈ blocked.deletionsOf kind) :
    (∃ id, d = .id kind id ∧ id ∈ blocked.idsDeleting kind) ∨
      ∃ id v, d = .version kind id v ∧ v ∈ (blocked.versionsDeleting kind).get id := by
  rw [BlockedEntities.deletionsOf, Finset.mem_union, Finset.mem_image, Finset.mem_biUnion] at h
  rcases h with ⟨id, hid, rfl⟩ | ⟨id, _, h⟩
  · exact .inl ⟨id, rfl, hid⟩
  · obtain ⟨v, hv, rfl⟩ := Finset.mem_image.mp h
    exact .inr ⟨id, v, rfl, hv⟩

theorem mem_deletions {d : Deletion} (h : d ∈ blocked.deletions) :
    (∃ kind id, d = .id kind id ∧ id ∈ blocked.idsDeleting kind) ∨
      (∃ kind id v, d = .version kind id v ∧ v ∈ (blocked.versionsDeleting kind).get id) ∨
      ∃ v, d = .root v ∧ v ∈ blocked.rootsDeleting := by
  rw [BlockedEntities.deletions, Finset.mem_union, Finset.mem_union, Finset.mem_image] at h
  rcases h with (h | h) | ⟨v, hv, rfl⟩
  · exact (mem_deletionsOf h).imp (fun ⟨id, h⟩ => ⟨_, id, h⟩) fun ⟨id, v, h⟩ => .inl ⟨_, id, v, h⟩
  · exact (mem_deletionsOf h).imp (fun ⟨id, h⟩ => ⟨_, id, h⟩) fun ⟨id, v, h⟩ => .inl ⟨_, id, v, h⟩
  · exact .inr (.inr ⟨v, rfl, hv⟩)

/-! ## Protected roots -/

/-- The collector sees that the root uses this app: it is in the root itself or in one of its
children, and nowhere in another version. -/
def Tracked (root : StoredGroup) (id : AbsolutePathId) (v : Timestamp) : Prop :=
  root.transitiveAppIds.lookup id = some v ∧ ∀ ref ∈ root.appReferences, ref.1 = id → ref.2 = v

instance (root : StoredGroup) (id : AbsolutePathId) (v : Timestamp) :
    Decidable (Tracked root id v) :=
  inferInstanceAs (Decidable (_ ∧ _))

/-- Nothing of the root is lost by what the collector does now. -/
def Data.Protects : Data → StoredGroup → Prop
  | .scanning updates, root =>
    root.version ∈ updates.rootsStored ∧
      ∀ id v, Tracked root id v → updates.Records .app id v
  | .compacting blocked, root =>
    root.version ∉ blocked.rootsDeleting ∧
      ∀ kind id v, (id, v) ∈ kind.references root → ¬blocked.Deletes kind id v
  | _, _ => True

theorem UpdatedEntities.records_addRoot (h : root.transitiveAppIds.lookup id = some v) :
    (updates.addRoot root).Records .app id v :=
  SetMap.mem_get_addBindings.mpr (.inr (Dict.mem_bindings.mpr h))

theorem protects_addRoot (updates : UpdatedEntities) (root : StoredGroup) :
    (Data.scanning (updates.addRoot root)).Protects root :=
  ⟨Finset.mem_insert_self _ _, fun _ _ h => UpdatedEntities.records_addRoot h.1⟩

theorem kind_references_ofGroup (kind : Kind) (group : RootGroup) :
    kind.references (StoredGroup.ofGroup group) = kind.transitive group := by
  cases kind with
  | app => exact StoredGroup.appReferences_ofGroup group
  | pod => exact StoredGroup.podReferences_ofGroup group

theorem lookup_transitiveAppVersions {group : RootGroup}
    (h : Tracked (StoredGroup.ofGroup group) id v) :
    (id, v) ∈ (UpdatedEntities.transitiveAppVersions group).bindings := by
  have href : (id, v) ∈ (StoredGroup.ofGroup group).appReferences :=
    StoredGroup.mem_references_of_lookup_transitiveIds h.1
  rw [StoredGroup.appReferences_ofGroup] at href
  obtain ⟨w, hw, hmem⟩ := Dict.exists_lookup_insertAll_of_mem (d := ∅) href
  have heq : w = v := by
    apply h.2 (id, w) _ rfl
    rw [StoredGroup.appReferences_ofGroup]
    exact hmem
  rw [Dict.mem_bindings, UpdatedEntities.transitiveAppVersions, ← heq]
  exact hw

theorem protects_addPlan (updates : UpdatedEntities) (plan : DeploymentPlan)
    (h : root ∈ (Entity.plan plan).roots) : (Data.scanning (updates.addPlan plan)).Protects root := by
  have hmem : ∀ id v, v ∈ (updates.addPlan plan).appVersionsStored.get id ↔
      (v ∈ updates.appVersionsStored.get id ∨
        (id, v) ∈ (UpdatedEntities.transitiveAppVersions plan.original).bindings) ∨
        (id, v) ∈ (UpdatedEntities.transitiveAppVersions plan.target).bindings := by
    intro id v
    simp only [UpdatedEntities.addPlan, UpdatedEntities.addAppVersions, SetMap.mem_get_addBindings]
  rcases List.mem_pair.mp h with rfl | rfl
  · refine ⟨?_, fun id v htracked => ?_⟩
    · simp [UpdatedEntities.addPlan]
    · exact (hmem id v).mpr (.inl (.inr (lookup_transitiveAppVersions htracked)))
  · refine ⟨?_, fun id v htracked => ?_⟩
    · simp [UpdatedEntities.addPlan]
    · exact (hmem id v).mpr (.inr (lookup_transitiveAppVersions htracked))

/-- The updates record no less than before. -/
def UpdatedEntities.Extends (updates before : UpdatedEntities) : Prop :=
  before.rootsStored ⊆ updates.rootsStored ∧
    ∀ id v, before.Records .app id v → updates.Records .app id v

theorem UpdatedEntities.Extends.protects {before : UpdatedEntities}
    (h : updates.Extends before)
    (hroot : (Data.scanning before).Protects root) : (Data.scanning updates).Protects root :=
  ⟨h.1 hroot.1, fun id v htracked => h.2 id v (hroot.2 id v htracked)⟩

section Extends

variable (updates : UpdatedEntities)

theorem extends_addApp (id : AbsolutePathId) (version : Option Timestamp) :
    (updates.addApp id version).Extends updates := by
  cases version with
  | none => exact ⟨subset_rfl, fun _ _ h => h⟩
  | some version => exact ⟨subset_rfl, fun _ _ h => SetMap.mem_get_addBinding.mpr (.inl h)⟩

theorem extends_addPod (id : AbsolutePathId) (version : Option Timestamp) :
    (updates.addPod id version).Extends updates := by
  cases version <;> exact ⟨subset_rfl, fun _ _ h => h⟩

theorem extends_addRoot (root : StoredGroup) : (updates.addRoot root).Extends updates :=
  ⟨Finset.subset_insert _ _, fun _ _ h => SetMap.mem_get_addBindings.mpr (.inl h)⟩

theorem extends_addPlan (plan : DeploymentPlan) : (updates.addPlan plan).Extends updates :=
  ⟨Finset.subset_union_left, fun _ _ h => SetMap.mem_get_addBindings.mpr
    (.inl (SetMap.mem_get_addBindings.mpr (.inl h)))⟩

end Extends

/-- A root that does not have to wait is protected, if what the collector does not look at is
not being deleted. -/
theorem protects_of_not_blocksRoot (h : ¬blocked.blocksRoot root)
    (hunseen : ∀ kind, ∀ ref ∈ kind.references root,
      (kind = .app ∧ Tracked root ref.1 ref.2) ∨ ¬blocked.Deletes kind ref.1 ref.2) :
    (Data.compacting blocked).Protects root := by
  simp only [BlockedEntities.blocksRoot, Bool.or_eq_true, decide_eq_true_eq, not_or,
    Finset.not_nonempty_iff_eq_empty] at h
  obtain ⟨⟨hroot, happs⟩, hversions⟩ := h
  refine ⟨hroot, fun kind id v href => ?_⟩
  rcases hunseen kind (id, v) href with ⟨rfl, htracked⟩ | hkept
  · have hid : id ∈ root.transitiveAppIds.keys.toFinset :=
      List.mem_toFinset.mpr (Dict.mem_of_lookup_eq_some htracked.1)
    rintro (hdelete | hdelete)
    · have hinter : id ∈ blocked.appsDeleting ∩ root.transitiveAppIds.keys.toFinset :=
        Finset.mem_inter.mpr ⟨hdelete, hid⟩
      rw [happs] at hinter
      exact Finset.notMem_empty id hinter
    · have hkey : id ∈ blocked.appVersionsDeleting.keys.toFinset :=
        List.mem_toFinset.mpr (SetMap.mem_of_mem_get hdelete)
      have hinter := Finset.mem_inter.mpr ⟨hkey, hid⟩
      rw [hversions] at hinter
      exact Finset.notMem_empty id hinter
  · exact hkept

/-! ## The condition on the steps -/

/-- Every batch of the scan spares what the roots of the plans read reference. -/
def Reads.Covers (config : Config) (reads : Reads) : Prop :=
  ∀ currentRoot ∈ reads.root, ∀ storedPlans ∈ reads.lazyAll, ∀ roots ∈ rootsInUse reads storedPlans,
    ∀ batch ∈ (grouped config.scanBatchSize.toNat roots).zipIdx, ∀ root ∈ roots, ∀ kind,
      ∀ ref ∈ kind.references root,
        Spares config.maxVersions kind currentRoot batch.1 ((reads.ids kind).getD ∅)
          ((reads.versions kind batch.2 ref.1).getD ∅) ref.1 ref.2

namespace State

/-- The step begins a scan. -/
def StartsScan (config : Config) (s : State) : Event → Bool
  | .runGC =>
    match s.data with
    | .readyForGc => true
    | _ => false
  | .scanFinishes =>
    match s.data with
    | .scanning updates => (scan config s.reads).isEmpty && updates.gcRequested
    | _ => false
  | .compactionEnds =>
    match s.data with
    | .compacting blocked => blocked.gcRequested
    | _ => false
  | _ => false

/-- The updates with which a compaction of the scan's proposals begins. -/
def compactionStart (config : Config) (s : State) : Event → Option UpdatedEntities
  | .scanFinishes =>
    match s.data with
    | .scanning updates => if (scan config s.reads).isEmpty then none else some updates
    | _ => none
  | _ => none

/-- The root whose store message is handled while compacting, and does not have to wait. -/
def rootApproved (s : State) (event : Event) : Option (BlockedEntities × StoredGroup) :=
  match s.data, event, s.selfInbox with
  | .compacting blocked, .request (.root group _), _ =>
    if blocked.blocksRoot (StoredGroup.ofGroup group) then none
    else some (blocked, StoredGroup.ofGroup group)
  | .compacting blocked, .deliver, .storeRoot root _ :: _ =>
    if blocked.blocksRoot root then none else some (blocked, root)
  | _, _, _ => none

/-- The plan that is written while scanning or compacting. -/
def planWritten (s : State) (event : Event) : Option DeploymentPlan :=
  match s.data, event with
  | .resting, _ | .readyForGc, _ => none
  | _, .write i =>
    match s.requests[i]? with
    | some ⟨.plan plan, _, _⟩ => some plan
    | _ => none
  | _, _ => none

/-- The promises that are completed when the compaction is done. -/
def waiting (s : State) : List Promise :=
  match s.data with
  | .compacting blocked => blocked.promises
  | _ => []

/-- The condition on a step:
* a scan begins only when every root and plan that has been approved, or is approved with
  it, has been written;
* when a compaction begins, every batch of the scan has spared the plans' roots;
* and what the collector does not track of the roots approved meanwhile, pods and apps
  further down than one level, is recorded otherwise or not proposed;
* a root approved while compacting has nothing of the kind among the deletions;
* the roots of a plan that is written are the ones stored under their versions. -/
structure KeepsTrack (config : Config) (s : State) (event : Event) : Prop where
  written : s.StartsScan config event → ∀ request ∈ (s.completePromises s.waiting).requests,
    request.entity.isRunSpec ∨ request.written ∨ ∀ part ∈ request.parts, ¬part.approved
  covered : (s.compactionStart config event).isSome → s.reads.Covers config
  tracked : ∀ updates ∈ s.compactionStart config event, ∀ root ∈ s.approvedSince, ∀ kind,
    ∀ ref ∈ kind.references root,
      (kind = .app ∧ Tracked root ref.1 ref.2) ∨ updates.Records kind ref.1 ref.2 ∨
        ¬(scan config s.reads).Proposes kind ref.1 ref.2
  checked : ∀ approved ∈ s.rootApproved event, ∀ kind, ∀ ref ∈ kind.references approved.2,
    (kind = .app ∧ Tracked approved.2 ref.1 ref.2) ∨ ¬approved.1.Deletes kind ref.1 ref.2
  planRoots : ∀ plan ∈ s.planWritten event, ∀ root ∈ (Entity.plan plan).roots,
    ∀ found ∈ s.store.rootVersions.lookup root.version, ∀ kind : Kind,
      kind.references found ⊆ kind.references root

end State

/-! ## The invariant -/

/-- What the scan has read is what the store has, or the store has been written since by
requests approved since the scan began. -/
structure ReadsCurrent (reads : Reads) (store : Store) (since : List StoredGroup) : Prop where
  root : ∀ currentRoot, reads.root = some currentRoot →
    currentRoot = store.currentRoot ∨ StoredGroup.ofGroup store.currentRoot ∈ since
  plans : ∀ storedPlans, reads.lazyAll = some storedPlans → ∀ plan ∈ store.plans,
    plan ∈ storedPlans ∨ ∀ version ∈ planVersions [plan], ∃ root ∈ since, root.version = version ∧
      ∀ found, store.rootVersions.lookup version = some found → found ∈ since ∨
        ∀ kind : Kind, kind.references found ⊆ kind.references root
  roots : ∀ position version result, reads.lazyRootVersion position version = some result →
    ∀ found, store.rootVersions.lookup version = some found → result = some found ∨ found ∈ since

/-- Nothing that the current root or a stored plan needs is being deleted. -/
structure Kept (blocked : BlockedEntities) (store : Store) : Prop where
  currentRoot : ∀ kind id v, (id, v) ∈ kind.transitive store.currentRoot →
    ¬blocked.Deletes kind id v
  planRoots : ∀ root ∈ store.planRoots, ∀ kind id v, (id, v) ∈ kind.references root →
    ¬blocked.Deletes kind id v
  currentVersion : store.currentRoot.version ∉ blocked.rootsDeleting
  planVersions : ∀ version ∈ planVersions store.plans, version ∉ blocked.rootsDeleting

/-- The parts of a request are about its roots; it is written only when it is approved, and
until then its approved parts count as approved since the scan began. -/
structure Request.Sound (since : List StoredGroup) (request : Request) : Prop where
  roots : request.roots = request.entity.roots
  approved : request.written → request.approved
  since : ¬request.written → ∀ part ∈ request.parts, part.approved → ∀ root ∈ part.roots,
    root ∈ since

namespace State

/-- The roots that the promise is about. -/
def partRoots (s : State) (promise : Promise) : Option (List StoredGroup) :=
  s.requests[promise.request]?.bind fun request => request.parts[promise.part]?.map Part.roots

/-- The invariant of the collector. -/
structure Inv (s : State) : Prop where
  inbox : ∀ message ∈ s.selfInbox, ∃ root promise,
    message = .storeRoot root promise ∧ s.partRoots promise = some [root]
  requests : ∀ request ∈ s.requests, request.Sound s.approvedSince
  protects : ∀ root ∈ s.approvedSince, s.data.Protects root
  remaining : ∀ d ∈ s.remaining, ∃ blocked, s.data = .compacting blocked ∧ d ∈ blocked.deletions
  scanning : ∀ updates, s.data = .scanning updates → ReadsCurrent s.reads s.store s.approvedSince
  compacting : ∀ blocked, s.data = .compacting blocked → Kept blocked s.store

end State

end Marathon.Storage.GcActor
