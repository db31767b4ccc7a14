import Marathon.LaunchQueue.OfferConstraints

/-!
# Which instances want offers

`ReviveOffersState` records for each role the instances that want offers. It follows the
tracker's instances and the delays of the run specs, one event after another. Every record has
the version that the state had when it was made.
-/

namespace Marathon.LaunchQueue

open Lib OfferConstraints

/-! ## Events -/

/-- What the tracker tells. The instances of a snapshot stand under their ids; a deletion comes
with the instance as it was last. -/
inductive InstanceChangeOrSnapshot
  | instancesSnapshot (instances : Keyed Instance.instanceId)
  | instanceUpdated (i : Instance)
  | instanceDeleted (i : Instance)

/-- The instances after the change. -/
def InstanceChangeOrSnapshot.apply (instances : Keyed Instance.instanceId) :
    InstanceChangeOrSnapshot → Keyed Instance.instanceId
  | instancesSnapshot instances' => instances'
  | instanceUpdated i => instances.insert i
  | instanceDeleted i => instances.erase i.instanceId

inductive DelayedStatus
  | delayed (ref : RunSpecConfigRef)
  | notDelayed (ref : RunSpecConfigRef)

/-! ## The state -/

inductive OffersWantedReason
  | cleaningUpReservations
  | launching
deriving DecidableEq

structure OffersWantedInfo where
  version : ℕ
  reason : OffersWantedReason
  ref : RunSpecConfigRef
deriving DecidableEq

structure ReviveOffersState where
  instancesWantingOffers : Dict Role (Dict InstanceId OffersWantedInfo)
  activeDelays : Finset RunSpecConfigRef
  version : ℕ

namespace ReviveOffersState

def empty : ReviveOffersState := ⟨∅, ∅, 0⟩

def copyBumpingVersion (s : ReviveOffersState)
    (instancesWantingOffers : Dict Role (Dict InstanceId OffersWantedInfo))
    (activeDelays : Finset RunSpecConfigRef) : ReviveOffersState :=
  ⟨instancesWantingOffers, activeDelays, s.version + 1⟩

def wantsOffers (i : Instance) : Bool := i.isScheduled || shouldUnreserve i

def wantedReason (i : Instance) : OffersWantedReason :=
  if shouldUnreserve i then .cleaningUpReservations else .launching

def instanceToWantedInfo (s : ReviveOffersState) (i : Instance) : OffersWantedInfo :=
  ⟨s.version, wantedReason i, i.runSpec.configRef⟩

/-- The instances of a role that want offers; none when nothing is known of the role. -/
def ofRole (s : ReviveOffersState) (role : Role) : Dict InstanceId OffersWantedInfo :=
  (s.instancesWantingOffers.lookup role).getD ∅

/-- Every role of an instance is entered, whether offers are wanted or not. -/
def withSnapshot (s : ReviveOffersState) (instances : List Instance) (defaultRole : Role) :
    ReviveOffersState :=
  let rolesWithOffersWantedData := (instances.map Instance.role).dedup.map fun role =>
    (role, Dict.insertAll ∅ <| ((instances.filter fun i => i.role = role).filter wantsOffers).map
      fun i => (i.instanceId, s.instanceToWantedInfo i))
  s.copyBumpingVersion (Dict.insertAll (AList.insert defaultRole ∅ ∅) rolesWithOffersWantedData)
    s.activeDelays

def hasRecordOfInstanceWantingOffers (s : ReviveOffersState) (role : Role) (id : InstanceId) :
    Bool :=
  id ∈ s.ofRole role

/-- Empty entries of a role are kept. -/
def updateInstanceState (s : ReviveOffersState) (role : Role) (id : InstanceId)
    (newState : Option Instance) : ReviveOffersState :=
  let newRoleOffersWanted := match (newState.filter wantsOffers).map s.instanceToWantedInfo with
    | some wantedInfo => (s.ofRole role).insert id wantedInfo
    | none => (s.ofRole role).erase id
  s.copyBumpingVersion (s.instancesWantingOffers.insert role newRoleOffersWanted) s.activeDelays

def withInstanceAddedOrUpdated (s : ReviveOffersState) (i : Instance) : ReviveOffersState :=
  if wantsOffers i && s.hasRecordOfInstanceWantingOffers i.role i.instanceId then s
  else s.updateInstanceState i.role i.instanceId (some i)

def withInstanceDeleted (s : ReviveOffersState) (i : Instance) : ReviveOffersState :=
  s.updateInstanceState i.role i.instanceId (some i)

/-- The instances that the delay has kept from wanting offers get a new version. -/
def withoutDelay (s : ReviveOffersState) (ref : RunSpecConfigRef) : ReviveOffersState :=
  let bumpedVersions := s.instancesWantingOffers.mapWithKey fun _ instancesWantedInfo =>
    instancesWantedInfo.mapWithKey fun _ wantedInfo =>
      if wantedInfo.ref = ref then { wantedInfo with version := s.version } else wantedInfo
  s.copyBumpingVersion bumpedVersions (s.activeDelays.erase ref)

def withDelay (s : ReviveOffersState) (ref : RunSpecConfigRef) : ReviveOffersState :=
  s.copyBumpingVersion s.instancesWantingOffers (insert ref s.activeDelays)

/-- One step of `reviveStateFromInstancesAndDelays`. -/
def follow (defaultRole : Role) (s : ReviveOffersState) :
    InstanceChangeOrSnapshot ⊕ DelayedStatus → ReviveOffersState
  | .inl (.instancesSnapshot instances) => s.withSnapshot instances.values defaultRole
  | .inl (.instanceUpdated i) => s.withInstanceAddedOrUpdated i
  | .inl (.instanceDeleted i) => s.withInstanceDeleted i
  | .inr (.delayed ref) => s.withDelay ref
  | .inr (.notDelayed ref) => s.withoutDelay ref

def recordOf (s : ReviveOffersState) (role : Role) (id : InstanceId) : Option OffersWantedInfo :=
  (s.ofRole role).lookup id

variable {s : ReviveOffersState}

theorem ofRole_insert (s : ReviveOffersState) (role role' : Role)
    (instances : Dict InstanceId OffersWantedInfo) (delays : Finset RunSpecConfigRef) :
    (s.copyBumpingVersion (s.instancesWantingOffers.insert role instances) delays).ofRole role' =
      if role' = role then instances else s.ofRole role' := by
  unfold ofRole copyBumpingVersion
  split_ifs with h
  · rw [h, AList.lookup_insert, Option.getD_some]
  · rw [AList.lookup_insert_ne h]

theorem recordOf_updateInstanceState (s : ReviveOffersState) (i : Instance) (role : Role)
    (id : InstanceId) :
    (s.updateInstanceState i.role i.instanceId (some i)).recordOf role id =
      if role = i.role ∧ id = i.instanceId then
        if wantsOffers i then some (s.instanceToWantedInfo i) else none
      else s.recordOf role id := by
  unfold recordOf updateInstanceState
  rw [ofRole_insert]
  by_cases hrole : role = i.role
  · subst hrole
    rw [if_pos rfl]
    by_cases hwants : wantsOffers i = true
    · simp only [Option.filter_some, hwants, if_true, Option.map_some, true_and]
      split_ifs with hid
      · rw [hid, AList.lookup_insert]
      · rw [AList.lookup_insert_ne hid]
    · simp only [Option.filter_some, hwants, Option.map_none, true_and, if_false, Bool.false_eq_true]
      split_ifs with hid
      · rw [hid, AList.lookup_erase]
      · rw [AList.lookup_erase_ne hid]
  · rw [if_neg hrole, if_neg fun h => hrole h.1]

theorem hasRecord_iff {role : Role} {id : InstanceId} :
    s.hasRecordOfInstanceWantingOffers role id = true ↔ (s.recordOf role id).isSome := by
  rw [hasRecordOfInstanceWantingOffers, decide_eq_true_eq, recordOf, AList.lookup_isSome]

/-- An update of an instance that wants offers and is recorded changes nothing. -/
theorem recordOf_withInstanceAddedOrUpdated (s : ReviveOffersState) (i : Instance) (role : Role)
    (id : InstanceId) :
    (s.withInstanceAddedOrUpdated i).recordOf role id =
      if role = i.role ∧ id = i.instanceId then
        if wantsOffers i then some ((s.recordOf role id).getD (s.instanceToWantedInfo i)) else none
      else s.recordOf role id := by
  unfold withInstanceAddedOrUpdated
  by_cases hsame : (wantsOffers i && s.hasRecordOfInstanceWantingOffers i.role i.instanceId) = true
  · rw [if_pos hsame]
    rw [Bool.and_eq_true, hasRecord_iff] at hsame
    rw [if_pos hsame.1]
    split_ifs with hown
    · obtain ⟨rfl, rfl⟩ := hown
      obtain ⟨info, hinfo⟩ := Option.isSome_iff_exists.mp hsame.2
      rw [hinfo, Option.getD_some]
    · rfl
  · rw [if_neg hsame, recordOf_updateInstanceState]
    rw [Bool.and_eq_true, hasRecord_iff, not_and] at hsame
    by_cases hown : role = i.role ∧ id = i.instanceId
    · obtain ⟨rfl, rfl⟩ := hown
      simp only [and_self, if_true]
      split_ifs with hwants
      · rw [Option.not_isSome_iff_eq_none.mp (hsame hwants), Option.getD_none]
      · rfl
    · rw [if_neg hown, if_neg hown]

theorem recordOf_withInstanceDeleted (s : ReviveOffersState) (i : Instance) (role : Role)
    (id : InstanceId) :
    (s.withInstanceDeleted i).recordOf role id =
      if role = i.role ∧ id = i.instanceId then
        if wantsOffers i then some (s.instanceToWantedInfo i) else none
      else s.recordOf role id :=
  recordOf_updateInstanceState s i role id

theorem recordOf_withoutDelay (s : ReviveOffersState) (ref : RunSpecConfigRef) (role : Role)
    (id : InstanceId) :
    (s.withoutDelay ref).recordOf role id = (s.recordOf role id).map fun info =>
      if info.ref = ref then { info with version := s.version } else info := by
  unfold recordOf ofRole withoutDelay copyBumpingVersion
  rw [Dict.lookup_mapWithKey]
  cases s.instancesWantingOffers.lookup role with
  | none => rfl
  | some instances =>
    rw [Option.map_some, Option.getD_some, Option.getD_some]
    exact Dict.lookup_mapWithKey _ _ _

theorem nodup_ids (instances : Keyed Instance.instanceId) :
    (instances.values.map Instance.instanceId).Nodup := by
  rw [← Keyed.keys_eq]
  exact instances.dict.nodupKeys

theorem lookup_wanting (s : ReviveOffersState) (instances : Keyed Instance.instanceId)
    (role : Role) (id : InstanceId) :
    (Dict.insertAll ∅ <| ((instances.values.filter fun i => i.role = role).filter wantsOffers).map
      fun i => (i.instanceId, s.instanceToWantedInfo i)).lookup id =
      ((instances.lookup id).filter fun i => i.role = role && wantsOffers i).map
        s.instanceToWantedInfo := by
  have hmem : ∀ i, i ∈ (instances.values.filter fun i => i.role = role).filter wantsOffers ↔
      instances.lookup i.instanceId = some i ∧ (i.role = role && wantsOffers i) = true := by
    intro i
    simp only [List.mem_filter, Keyed.mem_values, Bool.and_eq_true, and_assoc]
  have hnodup : ((((instances.values.filter fun i => i.role = role).filter wantsOffers).map
      fun i => (i.instanceId, s.instanceToWantedInfo i)).map Prod.fst).Nodup := by
    rw [List.map_map]
    exact (nodup_ids instances).sublist ((List.filter_sublist.trans List.filter_sublist).map _)
  cases hwanting : (instances.lookup id).filter fun i => i.role = role && wantsOffers i with
  | none =>
    rw [Dict.lookup_insertAll_of_notMem]
    · rfl
    · intro e he hid
      obtain ⟨i, hi, rfl⟩ := List.mem_map.mp he
      obtain ⟨hlookup, hwants⟩ := (hmem i).mp hi
      obtain rfl : i.instanceId = id := hid
      rw [hlookup, Option.filter_some, if_pos hwants] at hwanting
      cases hwanting
  | some i =>
    obtain ⟨hlookup, hwants⟩ := Option.filter_eq_some_iff.mp hwanting
    obtain rfl := instances.key_of_lookup hlookup
    exact Dict.lookup_insertAll_of_mem hnodup
      (List.mem_map.mpr ⟨i, (hmem i).mpr ⟨hlookup, hwants⟩, rfl⟩)

/-- A snapshot records the instances of a role that want offers. -/
theorem recordOf_withSnapshot (s : ReviveOffersState) (instances : Keyed Instance.instanceId)
    (defaultRole role : Role) (id : InstanceId) :
    (s.withSnapshot instances.values defaultRole).recordOf role id =
      ((instances.lookup id).filter fun i => i.role = role && wantsOffers i).map
        s.instanceToWantedInfo := by
  rw [← lookup_wanting]
  unfold recordOf ofRole withSnapshot copyBumpingVersion
  rw [Dict.lookup_insertAll_map (List.nodup_dedup _)
    (fun role => Dict.insertAll ∅ <|
      ((instances.values.filter fun i => i.role = role).filter wantsOffers).map
        fun i => (i.instanceId, s.instanceToWantedInfo i))]
  split_ifs with hrole
  · rw [Option.getD_some]
  · have hnobody : (instances.values.filter fun i => i.role = role) = [] := by
      apply List.filter_eq_nil_iff.mpr
      intro i hi hsame
      exact hrole (List.mem_dedup.mpr (List.mem_map.mpr ⟨i, hi, of_decide_eq_true hsame⟩))
    rw [hnobody]
    by_cases hdefault : role = defaultRole
    · rw [hdefault, AList.lookup_insert]
      rfl
    · rw [AList.lookup_insert_ne hdefault]
      rfl

end ReviveOffersState

end Marathon.LaunchQueue
