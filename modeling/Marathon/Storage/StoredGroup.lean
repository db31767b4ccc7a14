import Marathon.State.Group

/-!
# Stored groups and plans

A root is stored without its apps and pods: a stored group has their ids and versions
only, and a stored plan has the versions of its two roots.
-/

namespace Marathon.Storage

open Lib

structure StoredGroup where
  id : AbsolutePathId
  appIds : Dict AbsolutePathId Timestamp
  podIds : Dict AbsolutePathId Timestamp
  storedGroups : List StoredGroup
  dependencies : Finset AbsolutePathId
  version : Timestamp
  enforceRole : Option Bool

namespace StoredGroup

/-- `ids` of the group and, for all its name, of its children only. -/
def transitiveIds (ids : StoredGroup → Dict AbsolutePathId Timestamp) (group : StoredGroup) :
    Dict AbsolutePathId Timestamp :=
  (ids group).insertAll (group.storedGroups.flatMap fun g => (ids g).bindings)

def transitiveAppIds : StoredGroup → Dict AbsolutePathId Timestamp := transitiveIds appIds

def transitivePodIds : StoredGroup → Dict AbsolutePathId Timestamp := transitiveIds podIds

/-! ## References -/

section References

variable (ids : StoredGroup → Dict AbsolutePathId Timestamp)

mutual

/-- Every id and version that the group or a group below it has in `ids`. -/
def references : StoredGroup → List (AbsolutePathId × Timestamp)
  | ⟨id, appIds, podIds, storedGroups, dependencies, version, enforceRole⟩ =>
    (ids ⟨id, appIds, podIds, storedGroups, dependencies, version, enforceRole⟩).bindings ++
      referencesOfAll storedGroups

def referencesOfAll : List StoredGroup → List (AbsolutePathId × Timestamp)
  | [] => []
  | group :: groups => group.references ++ referencesOfAll groups

end

theorem references_eq (group : StoredGroup) :
    group.references ids =
      (ids group).bindings ++ group.storedGroups.flatMap fun g => g.references ids := by
  have hall : ∀ groups : List StoredGroup,
      referencesOfAll ids groups = groups.flatMap fun g => g.references ids := by
    intro groups
    induction groups with
    | nil => simp [referencesOfAll]
    | cons group groups ih => simp [referencesOfAll, ih]
  obtain ⟨id, appIds, podIds, storedGroups, dependencies, version, enforceRole⟩ := group
  simp only [references, hall]

end References

/-- The app versions needed to load the group. -/
def appReferences : StoredGroup → List (AbsolutePathId × Timestamp) := references appIds

/-- The pod versions needed to load the group. -/
def podReferences : StoredGroup → List (AbsolutePathId × Timestamp) := references podIds

/-! ## Storing a group -/

mutual

/-- `StoredGroup.apply`: the group as it is stored. -/
def ofGroup : Group → StoredGroup
  | ⟨id, apps, pods, groupsById, dependencies, version, enforceRole⟩ =>
    { id := id
      appIds := apps.dict.mapWithKey fun _ app => app.version
      podIds := pods.dict.mapWithKey fun _ pod => pod.version
      storedGroups := ofEntries groupsById
      dependencies := dependencies
      version := version
      enforceRole := enforceRole }

def ofEntries : List (AbsolutePathId × Group) → List StoredGroup
  | [] => []
  | entry :: entries => ofEntry entry :: ofEntries entries

def ofEntry : AbsolutePathId × Group → StoredGroup
  | (_, group) => ofGroup group

end

@[simp]
theorem version_ofGroup (group : Group) : (ofGroup group).version = group.version := by
  cases group
  rfl

section OfGroup

variable {V : Type} {key : V → AbsolutePathId} (own : Group → Keyed key) (version : V → Timestamp)
  (ids : StoredGroup → Dict AbsolutePathId Timestamp)
  (hids : ∀ group, ids (ofGroup group) = (own group).dict.mapWithKey fun _ v => version v)

include hids

mutual

/-- A stored group references what the group holds at any depth; `own` is where a group has
the run specs, `version` what is stored of them and `ids` where. -/
theorem references_ofGroup : ∀ group : Group,
    references ids (ofGroup group) =
      (group.transitive fun g => (own g).values).map fun v => (key v, version v)
  | ⟨id, apps, pods, groupsById, dependencies, v, enforceRole⟩ => by
    have hown := hids ⟨id, apps, pods, groupsById, dependencies, v, enforceRole⟩
    rw [ofGroup] at hown ⊢
    rw [references, Group.transitive, List.map_append, hown, Dict.bindings_mapWithKey,
      Keyed.bindings_dict, List.map_map, referencesOfAll_ofEntries groupsById]
    rfl

theorem referencesOfAll_ofEntries : ∀ entries : List (AbsolutePathId × Group),
    referencesOfAll ids (ofEntries entries) =
      (Group.transitiveEntries (fun g => (own g).values) entries).map fun v => (key v, version v)
  | [] => rfl
  | entry :: entries => by
    rw [ofEntries, referencesOfAll, Group.transitiveEntries, List.map_append,
      references_ofEntry entry, referencesOfAll_ofEntries entries]

theorem references_ofEntry : ∀ entry : AbsolutePathId × Group,
    references ids (ofEntry entry) =
      (Group.transitiveEntry (fun g => (own g).values) entry).map fun v => (key v, version v)
  | (_, group) => by
    rw [ofEntry, Group.transitiveEntry, references_ofGroup group]

end

end OfGroup

theorem appReferences_ofGroup (group : Group) :
    (ofGroup group).appReferences = group.transitiveApps.map fun app => (app.id, app.version) :=
  references_ofGroup Group.apps AppDefinition.version appIds (fun ⟨_, _, _, _, _, _, _⟩ => rfl)
    group

theorem podReferences_ofGroup (group : Group) :
    (ofGroup group).podReferences = group.transitivePods.map fun pod => (pod.id, pod.version) :=
  references_ofGroup Group.pods PodDefinition.version podIds (fun ⟨_, _, _, _, _, _, _⟩ => rfl)
    group

/-- What a group and its children list is referenced by the group. -/
theorem mem_references_of_lookup_transitiveIds {ids : StoredGroup → Dict AbsolutePathId Timestamp}
    {group : StoredGroup} {id : AbsolutePathId} {version : Timestamp}
    (h : (transitiveIds ids group).lookup id = some version) :
    (id, version) ∈ references ids group := by
  rw [references_eq]
  rcases Dict.lookup_insertAll_eq_some h with hown | hchild
  · exact List.mem_append_left _ (Dict.mem_bindings.mpr hown)
  · obtain ⟨child, hchild, hbinding⟩ := List.mem_flatMap.mp hchild
    apply List.mem_append_right
    apply List.mem_flatMap.mpr
    refine ⟨child, hchild, ?_⟩
    rw [references_eq]
    exact List.mem_append_left _ hbinding

end StoredGroup

structure StoredPlan where
  id : String
  originalVersion : Timestamp
  targetVersion : Timestamp
  version : Timestamp
deriving DecidableEq

end Marathon.Storage
