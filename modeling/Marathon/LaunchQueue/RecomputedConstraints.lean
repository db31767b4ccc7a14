import Marathon.LaunchQueue.ReviveOffersState
import Marathon.LaunchQueue.UsableOffers

/-!
# Offer constraints that follow the instances

The state of the offer constraints that follows the instances one by one publishes what a
snapshot of them all would, as long as no instance leaves something behind: an update, or a
deletion, looks only at the config that the instance has now.
-/

namespace Marathon.LaunchQueue.OfferConstraints

open Lib Constraints

/-! ## What the state of a config has of an instance -/

/-- The state has of the id what the instance, if there is one, brings in. -/
structure Shows (e : RunSpecState) (id : InstanceId) (o : Option Instance) : Prop where
  scheduled : id ∈ e.scheduledInstances ↔ ∃ i ∈ o, i.isScheduled = true
  unreserve : id ∈ e.instancesToUnreserve ↔ ∃ i ∈ o, shouldUnreserve i = true
  induced : ∀ inds, e.induced.lookup id = some inds ↔
    inds ≠ ∅ ∧ ∃ i ∈ o, getInducedByInstance i = .ok inds

/-- The instance is scheduled, to be unreserved, or brings constraints to life. -/
def Contributes (i : Instance) : Prop :=
  i.isScheduled = true ∨ shouldUnreserve i = true ∨
    ∃ inds, inds ≠ ∅ ∧ getInducedByInstance i = .ok inds

variable {e : RunSpecState} {id id' : InstanceId} {o : Option Instance} {l : List Instance}
  {instances : Keyed Instance.instanceId} {ref : RunSpecConfigRef}
  {event : InstanceChangeOrSnapshot}

theorem Shows.none_of_not_contributes
    (h : Shows e id o) (hnot : ∀ i ∈ o, ¬Contributes i) : Shows e id none where
  scheduled := by
    rw [h.scheduled]
    constructor
    · rintro ⟨i, hi, hscheduled⟩
      exact absurd (.inl hscheduled) (hnot i hi)
    · rintro ⟨i, hi, _⟩
      cases hi
  unreserve := by
    rw [h.unreserve]
    constructor
    · rintro ⟨i, hi, hunreserve⟩
      exact absurd (.inr (.inl hunreserve)) (hnot i hi)
    · rintro ⟨i, hi, _⟩
      cases hi
  induced := by
    intro inds
    rw [h.induced]
    constructor
    · rintro ⟨hne, i, hi, hinduced⟩
      exact absurd (.inr (.inr ⟨inds, hne, hinduced⟩)) (hnot i hi)
    · rintro ⟨_, i, hi, _⟩
      cases hi

theorem shows_empty (id : InstanceId) : Shows .empty id none where
  scheduled := by simp [RunSpecState.empty]
  unreserve := by simp [RunSpecState.empty]
  induced := by simp [RunSpecState.empty]

theorem mem_setMember {ids : Finset InstanceId} {member : Bool} :
    id' ∈ RunSpecState.setMember ids id member ↔
      (id' = id ∧ member = true) ∨ (id' ≠ id ∧ id' ∈ ids) := by
  unfold RunSpecState.setMember
  split_ifs with h
  · rw [Finset.mem_insert]
    by_cases hid : id' = id <;> simp [hid, h]
  · rw [Finset.mem_erase]
    by_cases hid : id' = id <;> simp [hid, h]

section Update

variable {e : RunSpecState} {i : Instance} {inds : Finset Induced}

theorem shows_update (hinds : getInducedByInstance i = .ok inds) :
    Shows (e.withInstanceAddedOrUpdated i inds) i.instanceId (some i) where
  scheduled := by simp [RunSpecState.withInstanceAddedOrUpdated, mem_setMember]
  unreserve := by simp [RunSpecState.withInstanceAddedOrUpdated, mem_setMember]
  induced := by
    intro inds'
    simp only [RunSpecState.withInstanceAddedOrUpdated, Option.mem_some_iff, exists_eq_left', hinds,
      Except.ok.injEq]
    split_ifs with hempty
    · rw [AList.lookup_erase, hempty]
      constructor
      · intro h
        cases h
      · rintro ⟨hne, rfl⟩
        exact absurd rfl hne
    · rw [AList.lookup_insert, Option.some.injEq]
      constructor
      · rintro rfl
        exact ⟨hempty, rfl⟩
      · exact fun h => h.2

theorem Shows.update_of_ne (h : Shows e id o)
    (hne : id ≠ i.instanceId) : Shows (e.withInstanceAddedOrUpdated i inds) id o where
  scheduled := by
    simp only [RunSpecState.withInstanceAddedOrUpdated, mem_setMember, hne, false_and, false_or, ne_eq,
      not_false_eq_true, true_and]
    exact h.scheduled
  unreserve := by
    simp only [RunSpecState.withInstanceAddedOrUpdated, mem_setMember, hne, false_and, false_or, ne_eq,
      not_false_eq_true, true_and]
    exact h.unreserve
  induced := by
    intro inds'
    simp only [RunSpecState.withInstanceAddedOrUpdated]
    split_ifs
    · rw [AList.lookup_erase_ne hne]
      exact h.induced inds'
    · rw [AList.lookup_insert_ne hne]
      exact h.induced inds'

/-- Where nothing would change, the state has the instance already. -/
theorem Shows.unchanged (h : Shows e i.instanceId o)
    (hinds : getInducedByInstance i = .ok inds) (hsame : e.willChangeOnUpdate i inds = false) :
    Shows e i.instanceId (some i) := by
  simp only [RunSpecState.willChangeOnUpdate, Bool.or_eq_false_iff, decide_eq_false_iff_not,
    not_not, bne_eq_false_iff_eq] at hsame
  obtain ⟨⟨⟨_, hinduced⟩, hscheduled⟩, hunreserve⟩ := hsame
  refine ⟨?_, ?_, fun inds' => ?_⟩
  · simp [← hscheduled]
  · simp [← hunreserve]
  · simp only [Option.mem_some_iff, exists_eq_left', hinds, Except.ok.injEq]
    constructor
    · intro hlookup
      rw [hlookup, Option.getD_some] at hinduced
      exact ⟨((h.induced inds').mp hlookup).1, hinduced.symm⟩
    · rintro ⟨hne, rfl⟩
      cases hlookup : e.induced.lookup i.instanceId with
      | none =>
        rw [hlookup, Option.getD_none] at hinduced
        exact absurd hinduced.symm hne
      | some inds' => rw [← hinduced, hlookup, Option.getD_some]

theorem shows_delete (e : RunSpecState) (id : InstanceId) :
    Shows (e.withInstanceDeleted id) id none := by
  unfold RunSpecState.withInstanceDeleted
  dsimp only
  split_ifs
  · exact shows_empty id
  · exact ⟨by simp, by simp, by simp⟩

theorem Shows.delete_of_ne (h : Shows e id' o)
    (hne : id' ≠ id) : Shows (e.withInstanceDeleted id) id' o := by
  have hkept : Shows { e with
      induced := e.induced.erase id
      scheduledInstances := e.scheduledInstances.erase id
      instancesToUnreserve := e.instancesToUnreserve.erase id } id' o := by
    refine ⟨?_, ?_, fun inds => ?_⟩
    · rw [← h.scheduled]
      simp [hne]
    · rw [← h.unreserve]
      simp [hne]
    · rw [← h.induced, AList.lookup_erase_ne hne]
  unfold RunSpecState.withInstanceDeleted
  dsimp only
  split_ifs with hempty
  · -- nothing is left, so there was nothing of the other instance either
    rw [RunSpecState.isEmpty, Bool.and_eq_true, Bool.and_eq_true, decide_eq_true_eq,
      decide_eq_true_eq, decide_eq_true_eq] at hempty
    obtain ⟨⟨hinduced, hscheduled⟩, hunreserve⟩ := hempty
    refine ⟨?_, ?_, fun inds => ?_⟩
    · rw [← hkept.scheduled, hscheduled]
      rfl
    · rw [← hkept.unreserve, hunreserve]
      rfl
    · rw [← hkept.induced]
      have hnone : (e.induced.erase id).lookup id' = none := by
        rw [AList.lookup_eq_none]
        intro hmem
        have hkeys : id' ∈ (e.induced.erase id).keys := hmem
        rw [hinduced] at hkeys
        cases hkeys
      simp only [hnone]
      rfl
  · exact hkept

end Update

theorem fromSnapshotInstances_shows (h : RunSpecState.fromSnapshotInstances l = .ok e)
    (ho : ∀ i, i ∈ o ↔ i ∈ l ∧ i.instanceId = id) : Shows e id o := by
  cases l with
  | nil =>
    cases h
    obtain rfl : o = none := Option.eq_none_iff_forall_not_mem.mpr fun i hi => by
      cases ((ho i).mp hi).1
    exact shows_empty id
  | cons head tail =>
    unfold RunSpecState.fromSnapshotInstances at h
    obtain ⟨entries, hentries, h⟩ := bind_eq_ok.mp h
    cases h
    have hmem : ∀ p : Instance → Bool,
        id ∈ (((head :: tail).filter p).map Instance.instanceId).toFinset ↔
          ∃ i ∈ o, p i = true := by
      intro p
      simp only [List.mem_toFinset, List.mem_map, List.mem_filter]
      constructor
      · rintro ⟨i, ⟨hi, hp⟩, hid⟩
        exact ⟨i, (ho i).mpr ⟨hi, hid⟩, hp⟩
      · rintro ⟨i, hi, hp⟩
        obtain ⟨hi, hid⟩ := (ho i).mp hi
        exact ⟨i, ⟨hi, hp⟩, hid⟩
    have hentry : ∀ inds, (id, inds) ∈ entries ↔ ∃ i ∈ o, getInducedByInstance i = .ok inds := by
      intro inds
      rw [mem_of_mapM_eq_ok hentries]
      constructor
      · rintro ⟨i, hi, hget⟩
        cases hinduced : getInducedByInstance i with
        | error => simp [hinduced, Except.map] at hget
        | ok inds' =>
          rw [hinduced] at hget
          obtain ⟨hid, rfl⟩ := Prod.mk.inj (Except.ok.inj hget)
          exact ⟨i, (ho i).mpr ⟨hi, hid⟩, hinduced⟩
      · rintro ⟨i, hi, hinduced⟩
        obtain ⟨hi, rfl⟩ := (ho i).mp hi
        exact ⟨i, hi, by rw [hinduced]; rfl⟩
    refine ⟨hmem _, hmem _, fun inds => ?_⟩
    have hkept : ∀ inds, (id, inds) ∈ entries.filter (fun entry => entry.2 ≠ ∅) ↔
        inds ≠ ∅ ∧ ∃ i ∈ o, getInducedByInstance i = .ok inds := by
      intro inds
      rw [List.mem_filter, hentry, decide_eq_true_eq, and_comm]
    rw [← hkept]
    constructor
    · intro hlookup
      exact (Dict.lookup_insertAll_eq_some hlookup).resolve_left fun hempty => by cases hempty
    · intro hfiltered
      obtain ⟨inds', hlookup, hmem'⟩ := Dict.exists_lookup_insertAll_of_mem (d := ∅) hfiltered
      -- there is only one instance with the id
      obtain ⟨_, i, hi, hinds⟩ := (hkept inds).mp hfiltered
      obtain ⟨_, i', hi', hinds'⟩ := (hkept inds').mp hmem'
      cases (Option.mem_def.mp hi).symm.trans hi'
      cases hinds.symm.trans hinds'
      exact hlookup

/-! ## What the state has of all instances -/

def entry (state : State) (ref : RunSpecConfigRef) : RunSpecState :=
  (state.lookup ref).getD .empty

/-- The instance with the id, if it has the config. -/
def ofConfig (instances : Keyed Instance.instanceId) (ref : RunSpecConfigRef) (id : InstanceId) :
    Option Instance :=
  (instances.lookup id).filter fun i => i.runSpec.configRef = ref

/-- Every config shows its instances, and has their role and constraints. -/
structure Mirrors (instances : Keyed Instance.instanceId) (state : State) : Prop where
  shows : ∀ ref id, Shows (entry state ref) id (ofConfig instances ref id)
  specs : ∀ i ∈ instances.values, ∀ e ∈ state.lookup i.runSpec.configRef,
    e.role = i.runSpec.role ∧ e.constraints = i.runSpec.constraints
  raises : ∀ i ∈ instances.values, ∃ inds, getInducedByInstance i = .ok inds

theorem mem_ofConfig {i : Instance} :
    i ∈ ofConfig instances ref id ↔
      i ∈ instances.values ∧ i.runSpec.configRef = ref ∧ i.instanceId = id := by
  rw [ofConfig, Option.mem_def, Option.filter_eq_some_iff, decide_eq_true_eq, Keyed.mem_values]
  constructor
  · rintro ⟨hlookup, href⟩
    obtain rfl := instances.key_of_lookup hlookup
    exact ⟨hlookup, href, rfl⟩
  · rintro ⟨hlookup, href, rfl⟩
    exact ⟨hlookup, href⟩

theorem ofConfig_insert (instances : Keyed Instance.instanceId) (i : Instance)
    (ref : RunSpecConfigRef) (id : InstanceId) :
    ofConfig (instances.insert i) ref id =
      if id = i.instanceId then if i.runSpec.configRef = ref then some i else none
      else ofConfig instances ref id := by
  unfold ofConfig
  rw [Keyed.lookup_insert]
  split_ifs with hid href
  · rw [Option.filter_some, if_pos (decide_eq_true href)]
  · rw [Option.filter_some, if_neg (by rwa [decide_eq_true_eq])]
  · rfl

theorem ofConfig_erase (instances : Keyed Instance.instanceId) (erased : InstanceId)
    (ref : RunSpecConfigRef) (id : InstanceId) :
    ofConfig (instances.erase erased) ref id =
      if id = erased then none else ofConfig instances ref id := by
  unfold ofConfig
  rw [Keyed.lookup_erase]
  split_ifs <;> rfl

theorem mem_values_insert {i j : Instance}
    (h : j ∈ (instances.insert i).values) : j = i ∨ j.instanceId ≠ i.instanceId ∧
      j ∈ instances.values := by
  rw [Keyed.mem_values, Keyed.lookup_insert] at h
  split_ifs at h with heq
  · exact .inl (Option.some.inj h).symm
  · exact .inr ⟨heq, Keyed.mem_values.mpr h⟩

/-! ## States that have the same of the instances -/

section Same

variable {instances : Keyed Instance.instanceId} {s t : State}

theorem effectiveInducedConstraints_congr {e' : RunSpecState}
    (h : ∀ id, e.induced.lookup id = e'.induced.lookup id) :
    e.effectiveInducedConstraints = e'.effectiveInducedConstraints := by
  have hperm : e.induced.values.Perm e'.induced.values := by
    apply List.Perm.map
    apply List.lookup_ext e.induced.nodupKeys e'.induced.nodupKeys
    intro id inds
    exact iff_of_eq (congrArg (inds ∈ ·) (h id))
  have hall : e.induced.values.foldr (· ∪ ·) ∅ = e'.induced.values.foldr (· ∪ ·) ∅ := by
    ext induced
    rw [mem_foldr_union, mem_foldr_union]
    simp only [hperm.mem_iff]
  unfold RunSpecState.effectiveInducedConstraints
  simp only [hall, hperm.countP_eq]

theorem Mirrors.toGroup_eq (hs : Mirrors instances s) (ht : Mirrors instances t)
    (he : s.lookup ref = some e) {group : ConstraintGroup} (hgroup : e.toGroup = some group) :
    ∃ e', t.lookup ref = some e' ∧ e'.role = e.role ∧ e'.toGroup = some group := by
  have hentry : entry s ref = e := by rw [entry, he, Option.getD_some]
  have hscheduled : e.scheduledInstances = (entry t ref).scheduledInstances := by
    ext id
    rw [← hentry, (hs.shows ref id).scheduled, (ht.shows ref id).scheduled]
  have hunreserve : e.instancesToUnreserve = (entry t ref).instancesToUnreserve := by
    ext id
    rw [← hentry, (hs.shows ref id).unreserve, (ht.shows ref id).unreserve]
  have hinduced : ∀ id, e.induced.lookup id = (entry t ref).induced.lookup id := by
    intro id
    apply Option.ext
    intro inds
    rw [← hentry, (hs.shows ref id).induced, (ht.shows ref id).induced]
  -- the group is there for the sake of an instance
  have hinstance : ∃ id i, i ∈ ofConfig instances ref id := by
    unfold RunSpecState.toGroup at hgroup
    split_ifs at hgroup with hsome hnobody
    · obtain ⟨id, hid⟩ := Finset.nonempty_iff_ne_empty.mpr hsome
      rw [← hentry] at hid
      obtain ⟨i, hi, _⟩ := (hs.shows ref id).unreserve.mp hid
      exact ⟨id, i, hi⟩
    · obtain ⟨id, hid⟩ := Finset.nonempty_iff_ne_empty.mpr hnobody
      rw [← hentry] at hid
      obtain ⟨i, hi, _⟩ := (hs.shows ref id).scheduled.mp hid
      exact ⟨id, i, hi⟩
  obtain ⟨id, i, hi⟩ := hinstance
  obtain ⟨hmem, rfl, _⟩ := mem_ofConfig.mp hi
  have hlookup : t.lookup i.runSpec.configRef = some (entry t i.runSpec.configRef) := by
    cases hfound : t.lookup i.runSpec.configRef with
    | some e' => rw [entry, hfound, Option.getD_some]
    | none =>
      have hnothing : entry t i.runSpec.configRef = .empty := by rw [entry, hfound, Option.getD_none]
      rw [hnothing] at hscheduled hunreserve
      unfold RunSpecState.toGroup at hgroup
      rw [hscheduled, hunreserve] at hgroup
      cases hgroup
  obtain ⟨hrole, hconstraints⟩ := hs.specs i hmem e he
  obtain ⟨hrole', hconstraints'⟩ := ht.specs i hmem _ hlookup
  refine ⟨_, hlookup, hrole'.trans hrole.symm, ?_⟩
  rw [← hgroup]
  unfold RunSpecState.toGroup
  rw [← hscheduled, ← hunreserve, ← effectiveInducedConstraints_congr hinduced,
    hconstraints', hconstraints]

theorem Mirrors.groups_subset (hs : Mirrors instances s) (ht : Mirrors instances t) (role : Role) :
    s.groups role ⊆ t.groups role := by
  intro group hgroup
  simp only [State.groups, List.mem_toFinset, List.mem_filterMap, List.mem_filter,
    decide_eq_true_eq, Dict.mem_values] at hgroup ⊢
  obtain ⟨e, ⟨⟨ref, he⟩, rfl⟩, hgroup⟩ := hgroup
  obtain ⟨e', he', hrole, hgroup'⟩ := hs.toGroup_eq ht he hgroup
  exact ⟨e', ⟨⟨ref, he'⟩, hrole⟩, hgroup'⟩

theorem Mirrors.roleState_eq (hs : Mirrors instances s) (ht : Mirrors instances t) (role : Role) :
    s.roleState role = t.roleState role := by
  unfold State.roleState
  rw [(hs.groups_subset ht role).antisymm (ht.groups_subset hs role)]

end Same

/-! ## Snapshots -/

theorem mem_of_withSnapshot {state : State} (h : State.withSnapshot l = .ok state) :
    (∀ ref e, state.lookup ref = some e →
        RunSpecState.fromSnapshotInstances (l.filter fun i => i.runSpec.configRef = ref) = .ok e) ∧
      ∀ i ∈ l, ∃ e, state.lookup i.runSpec.configRef = some e := by
  obtain ⟨entries, hentries, h⟩ := bind_eq_ok.mp h
  cases h
  have hentry : ∀ ref e, (ref, e) ∈ entries →
      RunSpecState.fromSnapshotInstances (l.filter fun i => i.runSpec.configRef = ref) = .ok e := by
    intro ref e he
    obtain ⟨ref', _, hstate⟩ := (mem_of_mapM_eq_ok hentries).mp he
    cases hsnapshot : RunSpecState.fromSnapshotInstances
        (l.filter fun i => i.runSpec.configRef = ref') with
    | error => simp [hsnapshot, Except.map] at hstate
    | ok e' =>
      rw [hsnapshot] at hstate
      cases hstate
      exact hsnapshot
  refine ⟨fun ref e he => hentry ref e ?_, fun i hi => ?_⟩
  · exact (Dict.lookup_insertAll_eq_some he).resolve_left fun hempty => by cases hempty
  · have href : i.runSpec.configRef ∈ (l.map fun i => i.runSpec.configRef).dedup :=
      List.mem_dedup.mpr (List.mem_map_of_mem hi)
    obtain ⟨⟨ref, e⟩, hstate⟩ := exists_eq_ok_of_mapM hentries href
    have he := (mem_of_mapM_eq_ok hentries).mpr ⟨_, href, hstate⟩
    obtain rfl : ref = i.runSpec.configRef := by
      cases hsnapshot : RunSpecState.fromSnapshotInstances
          (l.filter fun j => j.runSpec.configRef = i.runSpec.configRef) with
      | error => simp [hsnapshot, Except.map] at hstate
      | ok e' =>
        rw [hsnapshot] at hstate
        exact (Prod.mk.inj (Except.ok.inj hstate)).1.symm
    obtain ⟨e', hfound, _⟩ := Dict.exists_lookup_insertAll_of_mem (d := ∅) he
    exact ⟨e', hfound⟩

theorem getInducedByInstance_of_fromSnapshotInstances
    (h : RunSpecState.fromSnapshotInstances l = .ok e) {i : Instance} (hi : i ∈ l) :
    ∃ inds, getInducedByInstance i = .ok inds := by
  cases l with
  | nil => cases hi
  | cons head tail =>
    unfold RunSpecState.fromSnapshotInstances at h
    obtain ⟨entries, hentries, _⟩ := bind_eq_ok.mp h
    obtain ⟨b, hb⟩ := exists_eq_ok_of_mapM hentries hi
    cases hinduced : getInducedByInstance i with
    | error => simp [hinduced, Except.map] at hb
    | ok inds => exact ⟨inds, rfl⟩

theorem exists_withSnapshot (h : ∀ i ∈ l, ∃ inds, getInducedByInstance i = .ok inds) :
    ∃ state, State.withSnapshot l = .ok state := by
  have hgroup : ∀ ref ∈ (l.map fun i => i.runSpec.configRef).dedup,
      ∃ b, (RunSpecState.fromSnapshotInstances (l.filter fun i => i.runSpec.configRef = ref)).map
        (fun s => (ref, s)) = .ok b := by
    intro ref _
    cases hl : l.filter fun i => i.runSpec.configRef = ref with
    | nil => exact ⟨_, rfl⟩
    | cons head tail =>
      have hinduced : ∀ i ∈ head :: tail,
          ∃ b, (getInducedByInstance i).map (fun s => (i.instanceId, s)) = .ok b := by
        intro i hi
        rw [← hl] at hi
        obtain ⟨inds, hinds⟩ := h i (List.mem_filter.mp hi).1
        exact ⟨_, by rw [hinds]; rfl⟩
      obtain ⟨entries, hentries⟩ := exists_mapM_eq_ok hinduced
      unfold RunSpecState.fromSnapshotInstances
      simp only [hentries]
      exact ⟨_, rfl⟩
  obtain ⟨entries, hentries⟩ := exists_mapM_eq_ok hgroup
  unfold State.withSnapshot
  simp only [hentries]
  exact ⟨_, rfl⟩

theorem mirrors_snapshot {state : State}
    (hversioned : Versioned (instances.values.map Instance.runSpec))
    (h : State.withSnapshot instances.values = .ok state) : Mirrors instances state := by
  obtain ⟨hentry, hexists⟩ := mem_of_withSnapshot h
  refine ⟨fun ref id => ?_, fun i hi e he => ?_, fun i hi => ?_⟩
  · unfold entry
    cases hlookup : state.lookup ref with
    | some e =>
      apply fromSnapshotInstances_shows (hentry ref e hlookup)
      intro i
      rw [mem_ofConfig, List.mem_filter, decide_eq_true_eq, and_assoc]
    | none =>
      have hnone : ofConfig instances ref id = none := by
        apply Option.eq_none_iff_forall_not_mem.mpr
        intro i hi
        obtain ⟨hmem, rfl, _⟩ := mem_ofConfig.mp hi
        obtain ⟨e, he⟩ := hexists i hmem
        cases hlookup.symm.trans he
      rw [hnone]
      exact shows_empty id
  · have hfrom := hentry _ e he
    have hmem : i ∈ instances.values.filter fun j => j.runSpec.configRef = i.runSpec.configRef :=
      List.mem_filter.mpr ⟨hi, decide_eq_true rfl⟩
    cases hl : instances.values.filter fun j => j.runSpec.configRef = i.runSpec.configRef with
    | nil =>
      rw [hl] at hmem
      cases hmem
    | cons head tail =>
      have hhead : head ∈ instances.values.filter fun j =>
          j.runSpec.configRef = i.runSpec.configRef := by
        rw [hl]
        exact List.mem_cons_self
      obtain ⟨hhead, hconfig⟩ := List.mem_filter.mp hhead
      rw [hl] at hfrom
      unfold RunSpecState.fromSnapshotInstances at hfrom
      obtain ⟨entries, _, hstate⟩ := bind_eq_ok.mp hfrom
      cases hstate
      exact hversioned _ (List.mem_map_of_mem hhead) _ (List.mem_map_of_mem hi)
        (of_decide_eq_true hconfig)
  · obtain ⟨e, he⟩ := hexists i hi
    exact getInducedByInstance_of_fromSnapshotInstances (hentry _ e he)
      (List.mem_filter.mpr ⟨hi, decide_eq_true rfl⟩)

/-! ## Updates and deletions -/

section Step

variable {instances : Keyed Instance.instanceId} {state state' : State} {i : Instance}

/-- What an instance has left in another config than it has now is nothing. -/
def LeavesNothing (instances : Keyed Instance.instanceId) (i : Instance) : Prop :=
  ∀ old ∈ instances.lookup i.instanceId, old.runSpec.configRef ≠ i.runSpec.configRef →
    ¬Contributes old

theorem Mirrors.shows_none (h : Mirrors instances state) (hmoved : LeavesNothing instances i)
    (href : ref ≠ i.runSpec.configRef) : Shows (entry state ref) i.instanceId none := by
  apply (h.shows ref i.instanceId).none_of_not_contributes
  intro old hold
  rw [ofConfig, Option.mem_def, Option.filter_eq_some_iff, decide_eq_true_eq] at hold
  exact hmoved old hold.1 (hold.2 ▸ href)

theorem mirrors_update (h : Mirrors instances state) (hmoved : LeavesNothing instances i)
    (hversioned : Versioned ((instances.insert i).values.map Instance.runSpec))
    (hstep : state.withInstanceAddedOrUpdated i = .ok state') :
    Mirrors (instances.insert i) state' := by
  obtain ⟨inds, hinds, hstep⟩ := bind_eq_ok.mp hstep
  have hraises : ∀ j ∈ (instances.insert i).values, ∃ inds, getInducedByInstance j = .ok inds := by
    intro j hj
    obtain rfl | ⟨_, hj⟩ := mem_values_insert hj
    · exact ⟨inds, hinds⟩
    · exact h.raises j hj
  have hothers : ∀ ref id, ref ≠ i.runSpec.configRef →
      Shows (entry state ref) id (ofConfig (instances.insert i) ref id) := by
    intro ref id href
    rw [ofConfig_insert]
    split_ifs with hid hsame
    · exact absurd hsame.symm href
    · rw [hid]
      exact h.shows_none hmoved href
    · exact h.shows ref id
  have hinsert : ∀ j ∈ (instances.insert i).values, j.runSpec.configRef = i.runSpec.configRef →
      j.runSpec.role = i.runSpec.role ∧ j.runSpec.constraints = i.runSpec.constraints := by
    intro j hj hsame
    have hnew : i ∈ (instances.insert i).values := by
      rw [Keyed.mem_values, Keyed.lookup_insert, if_pos rfl]
    exact hversioned _ (List.mem_map_of_mem hj) _ (List.mem_map_of_mem hnew) hsame
  have hspecs : ∀ j ∈ (instances.insert i).values, j.runSpec.configRef ≠ i.runSpec.configRef →
      ∀ e ∈ state.lookup j.runSpec.configRef,
        e.role = j.runSpec.role ∧ e.constraints = j.runSpec.constraints := by
    intro j hj hother e he
    obtain rfl | ⟨_, hj⟩ := mem_values_insert hj
    · exact absurd rfl hother
    · exact h.specs j hj e he
  have hown : ∀ id, id ≠ i.instanceId →
      Shows (entry state i.runSpec.configRef) id
        (ofConfig (instances.insert i) i.runSpec.configRef id) := by
    intro id hid
    rw [ofConfig_insert, if_neg hid]
    exact h.shows _ id
  have hself : ofConfig (instances.insert i) i.runSpec.configRef i.instanceId = some i := by
    rw [ofConfig_insert, if_pos rfl, if_pos rfl]
  split_ifs at hstep with hchange
  · cases hstep
    refine ⟨fun ref id => ?_, fun j hj e he => ?_, hraises⟩
    · unfold entry
      by_cases href : ref = i.runSpec.configRef
      · rw [href, AList.lookup_insert, Option.getD_some]
        by_cases hid : id = i.instanceId
        · rw [hid, hself]
          exact shows_update hinds
        · exact (hown id hid).update_of_ne hid
      · rw [AList.lookup_insert_ne href]
        exact hothers ref id href
    · by_cases hsame : j.runSpec.configRef = i.runSpec.configRef
      · rw [hsame, AList.lookup_insert] at he
        cases he
        obtain ⟨hrole, hconstraints⟩ := hinsert j hj hsame
        exact ⟨hrole.symm, hconstraints.symm⟩
      · rw [AList.lookup_insert_ne hsame] at he
        exact hspecs j hj hsame e he
  · cases hstep
    rw [Bool.not_eq_true] at hchange
    refine ⟨fun ref id => ?_, fun j hj e he => ?_, hraises⟩
    · by_cases href : ref = i.runSpec.configRef
      · rw [href]
        by_cases hid : id = i.instanceId
        · rw [hid, hself]
          exact (h.shows _ _).unchanged hinds hchange
        · exact hown id hid
      · exact hothers ref id href
    · by_cases hsame : j.runSpec.configRef = i.runSpec.configRef
      · rw [hsame] at he
        rw [Option.mem_def.mp he] at hchange
        simp only [RunSpecState.willChangeOnUpdate, Option.getD_some, Bool.or_eq_false_iff,
          decide_eq_false_iff_not, not_not] at hchange
        obtain ⟨hrole, hconstraints⟩ := hinsert j hj hsame
        obtain ⟨⟨⟨⟨hsameRole, hsameConstraints⟩, _⟩, _⟩, _⟩ := hchange
        exact ⟨hsameRole.trans hrole.symm, hsameConstraints.trans hconstraints.symm⟩
      · exact hspecs j hj hsame e he

theorem entry_withInstanceDeleted (state : State) (i : Instance) :
    entry (state.withInstanceDeleted i) i.runSpec.configRef =
        (entry state i.runSpec.configRef).withInstanceDeleted i.instanceId ∨
      entry (state.withInstanceDeleted i) i.runSpec.configRef = .empty ∧
        ((entry state i.runSpec.configRef).withInstanceDeleted i.instanceId).isEmpty = true := by
  unfold entry State.withInstanceDeleted
  dsimp only
  split_ifs with hempty
  · rw [AList.lookup_erase, Option.getD_none]
    exact .inr ⟨rfl, hempty⟩
  · rw [AList.lookup_insert, Option.getD_some]
    exact .inl rfl

theorem Shows.of_isEmpty (h : Shows e id o) (hempty : e.isEmpty = true) : Shows .empty id o := by
  rw [RunSpecState.isEmpty, Bool.and_eq_true, Bool.and_eq_true, decide_eq_true_eq,
    decide_eq_true_eq, decide_eq_true_eq] at hempty
  obtain ⟨⟨hinduced, hscheduled⟩, hunreserve⟩ := hempty
  refine ⟨?_, ?_, fun inds => ?_⟩
  · rw [← h.scheduled, hscheduled]
    rfl
  · rw [← h.unreserve, hunreserve]
    rfl
  · rw [← h.induced]
    have hnone : e.induced.lookup id = none := by
      rw [AList.lookup_eq_none]
      intro hmem
      have hkeys : id ∈ e.induced.keys := hmem
      rw [hinduced] at hkeys
      cases hkeys
    rw [hnone]
    rfl

theorem mirrors_delete (h : Mirrors instances state) (hmoved : LeavesNothing instances i) :
    Mirrors (instances.erase i.instanceId) (state.withInstanceDeleted i) := by
  refine ⟨fun ref id => ?_, fun j hj e he => ?_, fun j hj => h.raises j (Keyed.mem_values_of_erase hj)⟩
  · rw [ofConfig_erase]
    by_cases href : ref = i.runSpec.configRef
    · subst href
      have hdeleted : Shows ((entry state i.runSpec.configRef).withInstanceDeleted i.instanceId) id
          (if id = i.instanceId then none else ofConfig instances i.runSpec.configRef id) := by
        split_ifs with hid
        · rw [hid]
          exact shows_delete _ _
        · exact (h.shows _ id).delete_of_ne hid
      obtain hentry | ⟨hentry, hempty⟩ := entry_withInstanceDeleted state i
      · rwa [hentry]
      · rw [hentry]
        exact hdeleted.of_isEmpty hempty
    · rw [entry, lookup_withInstanceDeleted_of_ne state i href]
      split_ifs with hid
      · rw [hid]
        exact h.shows_none hmoved href
      · exact h.shows ref id
  · have hj' := Keyed.mem_values_of_erase hj
    by_cases href : j.runSpec.configRef = i.runSpec.configRef
    · rw [href] at he
      obtain ⟨rfl, hempty⟩ := lookup_withInstanceDeleted_eq_some.mp he
      obtain ⟨_, _, hkept⟩ := withInstanceDeleted_spec
        ((state.lookup i.runSpec.configRef).getD .empty) i.instanceId
      obtain ⟨hrole, hconstraints⟩ := hkept hempty
      cases hlookup : state.lookup i.runSpec.configRef with
      | none =>
        rw [hlookup] at hempty
        cases hempty
      | some e =>
        rw [hlookup] at hrole hconstraints
        rw [← href] at hlookup
        obtain ⟨hrole', hconstraints'⟩ := h.specs j hj' e hlookup
        exact ⟨hrole.trans hrole', hconstraints.trans hconstraints'⟩
    · rw [lookup_withInstanceDeleted_of_ne state i href] at he
      exact h.specs j hj' e he

end Step

/-! ## Runs -/

/-- The instances of the tracker and the state that follows them. -/
structure Followed where
  instances : Keyed Instance.instanceId
  state : State

/-- What the stream does with an event. -/
def State.follow (state : State) : InstanceChangeOrSnapshot → Except Raised State
  | .instancesSnapshot instances => State.withSnapshot instances.values
  | .instanceUpdated i => state.withInstanceAddedOrUpdated i
  | .instanceDeleted i => .ok (state.withInstanceDeleted i)

/-- The stream as long as nothing is raised. -/
def offerConstraintsFlow : Machine Followed InstanceChangeOrSnapshot where
  Init f := f = ⟨∅, ∅⟩
  step f event := (f.state.follow event).toOption.map fun state => ⟨event.apply f.instances, state⟩

theorem instances_of_offerConstraintsFlow {f f' : Followed}
    (h : offerConstraintsFlow.step f event = some f') : f'.instances = event.apply f.instances := by
  obtain ⟨state, _, rfl⟩ := Option.map_eq_some_iff.mp h
  rfl

/-- After the event the instances of a config agree in role and constraints, and the instance of
an update or a deletion has not left anything in another config. -/
structure Settled (f : Followed) (event : InstanceChangeOrSnapshot) : Prop where
  versioned : Versioned ((event.apply f.instances).values.map Instance.runSpec)
  moved : ∀ i, event = .instanceUpdated i ∨ event = .instanceDeleted i →
    LeavesNothing f.instances i

theorem mirrors_step {f f' : Followed}
    (h : Mirrors f.instances f.state) (hsettled : Settled f event)
    (hstep : offerConstraintsFlow.step f event = some f') : Mirrors f'.instances f'.state := by
  obtain ⟨state, hstate, rfl⟩ := Option.map_eq_some_iff.mp hstep
  rw [toOption_eq_some] at hstate
  cases event with
  | instancesSnapshot instances => exact mirrors_snapshot hsettled.versioned hstate
  | instanceUpdated i =>
    exact mirrors_update h (hsettled.moved i (.inl rfl)) hsettled.versioned hstate
  | instanceDeleted i =>
    cases hstate
    exact mirrors_delete h (hsettled.moved i (.inr rfl))

theorem mirrors_empty : Mirrors ∅ ∅ where
  shows _ id := shows_empty id
  specs i hi := by cases hi
  raises i hi := by cases hi

/-- What is published is what a snapshot of the instances would publish. -/
def Recomputed (f : Followed) : Prop :=
  ∃ state, State.withSnapshot f.instances.values = .ok state ∧
    ∀ role, f.state.roleState role = state.roleState role

/-- **In every run of settled steps the state publishes what a snapshot would.** -/
theorem recomputed_of_settled {f : Followed} (h : offerConstraintsFlow.ReachableIf Settled f) :
    Recomputed f := by
  have hmirrors : Mirrors f.instances f.state ∧
      Versioned (f.instances.values.map Instance.runSpec) := by
    apply h.invariant
    · rintro _ rfl
      exact ⟨mirrors_empty, fun spec hspec => by cases hspec⟩
    · intro s event s' hs hsettled hstep
      refine ⟨mirrors_step hs.1 hsettled hstep, ?_⟩
      rw [instances_of_offerConstraintsFlow hstep]
      exact hsettled.versioned
  obtain ⟨state, hstate⟩ := exists_withSnapshot hmirrors.1.raises
  exact ⟨state, hstate, hmirrors.1.roleState_eq (mirrors_snapshot hmirrors.2 hstate)⟩

end Marathon.LaunchQueue.OfferConstraints

namespace Marathon.LaunchQueue.OfferConstraints.Racks

open Lib Constraints

/-! ## An instance that gets another config -/

def waitingOnly : InstanceChangeOrSnapshot := .instancesSnapshot (Keyed.insert ∅ waiting)

/-- Another instance is placed on the first rack. -/
def placing : InstanceChangeOrSnapshot := .instanceUpdated (placed .running)

theorem placing_published :
    (offerConstraintsFlow.run ⟨∅, ∅⟩ [waitingOnly, placing]).map
      (fun f => f.state.roleState "*") = some (some {otherRack}) := by
  decide +kernel

theorem versioned_of_forall {specs : List RunSpec} (h : ∀ spec ∈ specs, spec = runSpec) :
    Versioned specs := by
  intro spec hspec spec' hspec' _
  rw [h spec hspec, h spec' hspec']
  exact ⟨rfl, rfl⟩

theorem settled_waitingOnly : Settled ⟨∅, ∅⟩ waitingOnly where
  versioned := by
    apply versioned_of_forall
    intro spec hspec
    change spec ∈ [runSpec] at hspec
    exact List.mem_singleton.mp hspec
  moved := by
    rintro i (h | h)
    · cases h
    · cases h

theorem settled_placing {f : Followed} (h : f.instances = Keyed.insert ∅ waiting) :
    Settled f placing where
  versioned := by
    apply versioned_of_forall
    rw [h]
    intro spec hspec
    change spec ∈ [runSpec, runSpec] at hspec
    simpa using hspec
  moved := by
    rw [h]
    rintro i (hi | hi)
    · cases hi
      intro old hold
      cases hold
    · cases hi

theorem placing_recomputed : ∃ f, offerConstraintsFlow.ReachableIf Settled f ∧
    f.state.roleState "*" = some {otherRack} ∧ Recomputed f := by
  obtain ⟨f, hrun, hpublished⟩ := Option.map_eq_some_iff.mp placing_published
  simp only [Machine.run, Machine.runIf, if_true] at hrun
  obtain ⟨f', hfirst, hrest⟩ := Option.bind_eq_some_iff.mp hrun
  obtain ⟨f'', hsecond, hlast⟩ := Option.bind_eq_some_iff.mp hrest
  obtain rfl := Option.some.inj hlast
  have hinstances : f'.instances = Keyed.insert ∅ waiting :=
    instances_of_offerConstraintsFlow hfirst
  have hreachable : offerConstraintsFlow.ReachableIf Settled f'' :=
    .step (.step (.init rfl) settled_waitingOnly hfirst) (settled_placing hinstances) hsecond
  exact ⟨f'', hreachable, hpublished, recomputed_of_settled hreachable⟩

/-- The waiting instance in a later config that has no constraints on the rack. -/
def moved : Instance :=
  { waiting with
    runSpec := .app
      { plainApp ⟨["shop"]⟩ ∅ with
        constraints := {⟨"zone", .unique, none⟩}
        versionInfo := .onlyVersion ⟨1⟩ } }

def anyRack : ConstraintGroup := ⟨{⟨"rack", .exists⟩}⟩

def anyZone : ConstraintGroup := ⟨{⟨"zone", .exists⟩}⟩

theorem moving_published :
    (offerConstraintsFlow.run ⟨∅, ∅⟩ [waitingOnly, .instanceUpdated moved]).map
      (fun f => f.state.roleState "*") = some (some {anyRack, anyZone}) := by
  decide +kernel

theorem moved_published :
    (State.withSnapshot [moved]).toOption.map (fun state => state.roleState "*") =
      some (some {anyZone}) := by
  decide +kernel

/-- The state goes on publishing the constraint of the config that the instance has left. -/
theorem not_forall_reachable_recomputed : ¬∀ f, offerConstraintsFlow.Reachable f → Recomputed f := by
  intro h
  obtain ⟨f, hrun, hpublished⟩ := Option.map_eq_some_iff.mp moving_published
  have hreachable : offerConstraintsFlow.Reachable f :=
    Machine.reachableIf_of_runIf _ (.init rfl) hrun
  obtain ⟨state, hstate, hsame⟩ := h f hreachable
  simp only [Machine.run, Machine.runIf, if_true] at hrun
  obtain ⟨f', hfirst, hrest⟩ := Option.bind_eq_some_iff.mp hrun
  obtain ⟨f'', hsecond, hlast⟩ := Option.bind_eq_some_iff.mp hrest
  obtain rfl := Option.some.inj hlast
  have hvalues : f''.instances.values = [moved] := by
    rw [instances_of_offerConstraintsFlow hsecond, instances_of_offerConstraintsFlow hfirst]
    rfl
  rw [hvalues] at hstate
  have hmoved := moved_published
  rw [hstate] at hmoved
  have hboth : some ({anyRack, anyZone} : Finset ConstraintGroup) = some {anyZone} := by
    rw [← hpublished, hsame "*"]
    exact Option.some.inj hmoved
  exact absurd hboth (by decide)

end Marathon.LaunchQueue.OfferConstraints.Racks
