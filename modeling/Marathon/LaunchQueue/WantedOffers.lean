import Marathon.LaunchQueue.ReviveOffersState
import Marathon.State.RootGroup

/-!
# The instances that want offers

Followed one by one, the instances that want offers are the same as in a snapshot of them all,
unless an instance that wants offers gets another role, reason or config, or is deleted: it is
left recorded, or recorded anew, by the same routine that records the others.
-/

namespace Marathon.LaunchQueue.ReviveOffersState

open Lib

/-! ## What a snapshot would record -/

/-- Why an instance wants offers, and for which config; versions are left out. -/
def wanted (instances : Keyed Instance.instanceId) (role : Role) (id : InstanceId) :
    Option (OffersWantedReason × RunSpecConfigRef) :=
  ((instances.lookup id).filter fun i => i.role = role && wantsOffers i).map
    fun i => (wantedReason i, i.runSpec.configRef)

def recorded (s : ReviveOffersState) (role : Role) (id : InstanceId) :
    Option (OffersWantedReason × RunSpecConfigRef) :=
  (s.recordOf role id).map fun info => (info.reason, info.ref)

/-- The instances of the tracker and the state that follows them. -/
structure Feed where
  instances : Keyed Instance.instanceId
  state : ReviveOffersState

namespace Feed

def follow (defaultRole : Role) (f : Feed) (event : InstanceChangeOrSnapshot ⊕ DelayedStatus) :
    Feed where
  instances := match event with
    | .inl change => change.apply f.instances
    | .inr _ => f.instances
  state := f.state.follow defaultRole event

/-- After some events from the start. -/
def after (defaultRole : Role) (events : List (InstanceChangeOrSnapshot ⊕ DelayedStatus)) : Feed :=
  events.foldl (follow defaultRole) ⟨∅, empty⟩

theorem after_append (defaultRole : Role) (before : List (InstanceChangeOrSnapshot ⊕ DelayedStatus))
    (event : InstanceChangeOrSnapshot ⊕ DelayedStatus) :
    after defaultRole (before ++ [event]) = (after defaultRole before).follow defaultRole event := by
  simp only [after, List.foldl_append, List.foldl_cons, List.foldl_nil]

/-- The state records the instances that want offers, as a snapshot of them all would. -/
structure Recomputed (defaultRole : Role) (f : Feed) : Prop where
  wanted : ∀ role id, f.state.recorded role id = wanted f.instances role id
  snapshot : ∀ role id, f.state.recorded role id =
    (empty.withSnapshot f.instances.values defaultRole).recorded role id

theorem recorded_withSnapshot (s : ReviveOffersState) (instances : Keyed Instance.instanceId)
    (defaultRole role : Role) (id : InstanceId) :
    (s.withSnapshot instances.values defaultRole).recorded role id =
      ReviveOffersState.wanted instances role id := by
  rw [recorded, recordOf_withSnapshot, Option.map_map]
  rfl

theorem recomputed_iff {defaultRole : Role} {f : Feed} :
    f.Recomputed defaultRole ↔
      ∀ role id, f.state.recorded role id = ReviveOffersState.wanted f.instances role id := by
  refine ⟨Recomputed.wanted, fun h => ⟨h, fun role id => ?_⟩⟩
  rw [recorded_withSnapshot]
  exact h role id

end Feed

/-! ## One event -/

/-- An instance that wants offers keeps its role, and reason and config as long as it does; it
does not want offers any more when it is deleted. -/
def Keeps (instances : Keyed Instance.instanceId) :
    InstanceChangeOrSnapshot ⊕ DelayedStatus → Prop
  | .inl (.instanceUpdated i) =>
    ∀ old ∈ instances.lookup i.instanceId, wantsOffers old → old.role = i.role ∧
      (wantsOffers i → wantedReason old = wantedReason i ∧
        old.runSpec.configRef = i.runSpec.configRef)
  | .inl (.instanceDeleted i) =>
    ¬wantsOffers i ∧ ∀ old ∈ instances.lookup i.instanceId, wantsOffers old → old.role = i.role
  | _ => True

theorem wanted_insert (instances : Keyed Instance.instanceId) (i : Instance) (role : Role)
    (id : InstanceId) :
    wanted (instances.insert i) role id =
      if id = i.instanceId then
        if i.role = role ∧ wantsOffers i then some (wantedReason i, i.runSpec.configRef) else none
      else wanted instances role id := by
  unfold wanted
  rw [Keyed.lookup_insert]
  by_cases hid : id = i.instanceId
  · simp only [if_pos hid, Option.filter_some, Bool.and_eq_true, decide_eq_true_eq]
    split_ifs <;> rfl
  · rw [if_neg hid, if_neg hid]

theorem wanted_erase (instances : Keyed Instance.instanceId) (erased : InstanceId) (role : Role)
    (id : InstanceId) :
    wanted (instances.erase erased) role id =
      if id = erased then none else wanted instances role id := by
  unfold wanted
  rw [Keyed.lookup_erase]
  split_ifs <;> rfl

variable {instances : Keyed Instance.instanceId}

theorem wanted_eq_some {role : Role} {id : InstanceId} {w : OffersWantedReason × RunSpecConfigRef} :
    wanted instances role id = some w ↔
      ∃ i, instances.lookup id = some i ∧ i.role = role ∧ wantsOffers i ∧
        (wantedReason i, i.runSpec.configRef) = w := by
  unfold wanted
  simp only [Option.map_eq_some_iff, Option.filter_eq_some_iff, Bool.and_eq_true,
    decide_eq_true_eq, and_assoc]

/-- What is recorded of an instance in the roles that it does not have is left as it is. -/
theorem forall_wanted_iff {i : Instance} :
    (∀ role, role ≠ i.role → wanted instances role i.instanceId = none) ↔
      ∀ old ∈ instances.lookup i.instanceId, wantsOffers old → old.role = i.role := by
  constructor
  · intro h old hold hwants
    by_contra hrole
    have hnone := h old.role hrole
    rw [wanted_eq_some.mpr ⟨old, hold, rfl, hwants, rfl⟩] at hnone
    cases hnone
  · intro h role hrole
    cases hwanted : wanted instances role i.instanceId with
    | none => rfl
    | some w =>
      obtain ⟨old, hold, rfl, hwants, _⟩ := wanted_eq_some.mp hwanted
      exact absurd (h old hold hwants) hrole

variable {f : Feed}

theorem recorded_withInstanceAddedOrUpdated (s : ReviveOffersState) (i : Instance) (role : Role)
    (id : InstanceId) :
    (s.withInstanceAddedOrUpdated i).recorded role id =
      if role = i.role ∧ id = i.instanceId then
        if wantsOffers i then
          some ((s.recorded role id).getD (wantedReason i, i.runSpec.configRef))
        else none
      else s.recorded role id := by
  rw [recorded, recordOf_withInstanceAddedOrUpdated, recorded]
  split_ifs
  · cases s.recordOf role id <;> rfl
  · rfl
  · rfl

theorem recorded_withInstanceDeleted (s : ReviveOffersState) (i : Instance) (role : Role)
    (id : InstanceId) :
    (s.withInstanceDeleted i).recorded role id =
      if role = i.role ∧ id = i.instanceId then
        if wantsOffers i then some (wantedReason i, i.runSpec.configRef) else none
      else s.recorded role id := by
  rw [recorded, recordOf_withInstanceDeleted, recorded]
  split_ifs <;> rfl

theorem recorded_withoutDelay (s : ReviveOffersState) (ref : RunSpecConfigRef) (role : Role)
    (id : InstanceId) : (s.withoutDelay ref).recorded role id = s.recorded role id := by
  rw [recorded, recordOf_withoutDelay, recorded, Option.map_map]
  apply congrFun
  apply congrArg
  funext info
  simp only [Function.comp_apply]
  split_ifs <;> rfl

theorem forall_updated_iff {s : ReviveOffersState}
    (h : ∀ role id, s.recorded role id = wanted instances role id) (i : Instance) :
    (∀ role id, (s.withInstanceAddedOrUpdated i).recorded role id =
        wanted (instances.insert i) role id) ↔ Keeps instances (.inl (.instanceUpdated i)) := by
  simp only [recorded_withInstanceAddedOrUpdated, wanted_insert, h]
  constructor
  · intro hall old hold hwants
    have hrole : old.role = i.role := by
      refine forall_wanted_iff.mp (fun role hrole => ?_) old hold hwants
      have hother := hall role i.instanceId
      rwa [if_neg fun hown => hrole hown.1, if_pos rfl, if_neg fun hown => hrole hown.1.symm]
        at hother
    refine ⟨hrole, fun hnew => ?_⟩
    have hown := hall i.role i.instanceId
    have hwanted := wanted_eq_some.mpr ⟨old, hold, hrole, hwants, rfl⟩
    rw [if_pos ⟨rfl, rfl⟩, if_pos hnew, if_pos rfl, if_pos ⟨rfl, hnew⟩, hwanted] at hown
    exact Prod.mk.inj (Option.some.inj hown)
  · intro hkeeps role id
    by_cases hid : id = i.instanceId
    · subst hid
      rw [if_pos rfl]
      by_cases hrole : role = i.role
      · subst hrole
        simp only [and_self, if_true, true_and]
        split_ifs with hnew
        · cases hwanted : wanted instances i.role i.instanceId with
          | none => rfl
          | some w =>
            obtain ⟨old, hold, _, hwants, rfl⟩ := wanted_eq_some.mp hwanted
            obtain ⟨hreason, hconfig⟩ := (hkeeps old hold hwants).2 hnew
            rw [Option.getD_some, hreason, hconfig]
        · rfl
      · rw [if_neg fun hown => hrole hown.1, if_neg fun hown => hrole hown.1.symm]
        exact forall_wanted_iff.mpr (fun old hold hwants => (hkeeps old hold hwants).1) role hrole
    · rw [if_neg fun hown => hid hown.2, if_neg hid]

theorem forall_deleted_iff {s : ReviveOffersState}
    (h : ∀ role id, s.recorded role id = wanted instances role id) (i : Instance) :
    (∀ role id, (s.withInstanceDeleted i).recorded role id =
        wanted (instances.erase i.instanceId) role id) ↔
      Keeps instances (.inl (.instanceDeleted i)) := by
  simp only [recorded_withInstanceDeleted, wanted_erase, h]
  constructor
  · intro hall
    refine ⟨fun hwants => ?_, forall_wanted_iff.mp fun role hrole => ?_⟩
    · have hown := hall i.role i.instanceId
      rw [if_pos ⟨rfl, rfl⟩, if_pos hwants, if_pos rfl] at hown
      cases hown
    · have hother := hall role i.instanceId
      rwa [if_neg fun hown => hrole hown.1, if_pos rfl] at hother
  · rintro ⟨hgone, hkeeps⟩ role id
    by_cases hid : id = i.instanceId
    · subst hid
      rw [if_pos rfl]
      split_ifs with hown
      · rfl
      · exact forall_wanted_iff.mpr hkeeps role fun hrole => hown ⟨hrole, rfl⟩
    · rw [if_neg fun hown => hid hown.2, if_neg hid]

theorem recomputed_follow_iff {defaultRole : Role} (h : f.Recomputed defaultRole)
    (event : InstanceChangeOrSnapshot ⊕ DelayedStatus) :
    (f.follow defaultRole event).Recomputed defaultRole ↔ Keeps f.instances event := by
  rw [Feed.recomputed_iff] at h ⊢
  match event with
  | .inl (.instancesSnapshot instances) =>
    refine ⟨fun _ => trivial, fun _ role id => ?_⟩
    exact Feed.recorded_withSnapshot f.state instances defaultRole role id
  | .inr (.delayed ref) => exact ⟨fun _ => trivial, fun _ => h⟩
  | .inr (.notDelayed ref) =>
    refine ⟨fun _ => trivial, fun _ role id => ?_⟩
    exact (recorded_withoutDelay f.state ref role id).trans (h role id)
  | .inl (.instanceUpdated i) => exact forall_updated_iff h i
  | .inl (.instanceDeleted i) => exact forall_deleted_iff h i

/-! ## Every event -/

/-- **The instances that are recorded are the ones that a snapshot would record, exactly in the
runs in which every event keeps what is wanted.** -/
theorem forall_recomputed_iff (defaultRole : Role)
    (events : List (InstanceChangeOrSnapshot ⊕ DelayedStatus)) :
    (∀ before, before <+: events → (Feed.after defaultRole before).Recomputed defaultRole) ↔
      ∀ before event later, events = before ++ event :: later →
        Keeps (Feed.after defaultRole before).instances event := by
  constructor
  · intro hall before event later hevents
    have hprefix : before ++ [event] <+: events := ⟨later, by simp [hevents]⟩
    have hafter := hall (before ++ [event]) hprefix
    rw [Feed.after_append] at hafter
    exact (recomputed_follow_iff (hall before ((List.prefix_append _ _).trans hprefix)) event).mp
      hafter
  · intro hkeeps before
    induction before using List.reverseRecOn with
    | nil =>
      intro _
      exact Feed.recomputed_iff.mpr fun role id => rfl
    | append_singleton before event ih =>
      rintro ⟨later, hevents⟩
      have hbefore : before <+: events := ⟨event :: later, by simp [← hevents]⟩
      rw [Feed.after_append]
      apply (recomputed_follow_iff (ih hbefore) event).mpr
      exact hkeeps before event later (by simp [← hevents])

end Marathon.LaunchQueue.ReviveOffersState

namespace Marathon.LaunchQueue.ReviveOffersState.Freed

open Lib

/-! ## An instance whose reservation is freed -/

def instanceId : InstanceId := ⟨⟨["db"]⟩, .instance, ⟨0⟩⟩

/-- A resident instance that is gone but for its reservation. -/
def freed : Instance :=
  { Instance.scheduled (.app (plainApp ⟨["db"]⟩ ∅)) instanceId ⟨0⟩ with
    reservation := some ⟨[], .suspended, .simplifiedId instanceId⟩
    state := ⟨.finished, ⟨0⟩, none, none, .decommissioned⟩ }

def snapshot : Keyed Instance.instanceId := Keyed.insert ∅ freed

theorem recorded_freed :
    ((Feed.after "*" [.inl (.instancesSnapshot snapshot),
      .inl (.instanceDeleted freed)]).state.recorded "*" instanceId).isSome = true := by
  decide +kernel

/-- The instance that is deleted when its reservation is freed goes on to want offers. -/
theorem not_forall_recomputed :
    ¬∀ (defaultRole : Role) (snapshot : Keyed Instance.instanceId)
      (changes : List InstanceChangeOrSnapshot),
      (Feed.after defaultRole (.inl (.instancesSnapshot snapshot) :: changes.map .inl)).Recomputed
        defaultRole := by
  intro h
  have hwanted := (h "*" snapshot [.instanceDeleted freed]).wanted "*" instanceId
  have hnone : wanted (snapshot.erase instanceId) "*" instanceId = none := by
    rw [wanted_erase, if_pos rfl]
  have hrecorded := recorded_freed
  rw [show (Feed.after "*" [.inl (.instancesSnapshot snapshot),
    .inl (.instanceDeleted freed)]).state.recorded "*" instanceId = none from
      hwanted.trans hnone] at hrecorded
  cases hrecorded

end Marathon.LaunchQueue.ReviveOffersState.Freed
