import Marathon.Lib.Keyed
import Marathon.State.AppDefinition

/-!
# Groups

A group holds its apps, its pods and its child groups. Apps and pods stand under their
own ids. The child groups are a list of entries, since a map cannot hold the type that
is being defined.
-/

namespace Marathon

open Lib

structure Group where
  id : AbsolutePathId
  apps : Keyed AppDefinition.id
  pods : Keyed PodDefinition.id
  groupsById : List (AbsolutePathId × Group)
  dependencies : Finset AbsolutePathId
  version : Timestamp
  enforceRole : Option Bool

/-- The group at the root path. -/
abbrev RootGroup := Group

namespace Group

/-- `Group.apply`: only a top-level group enforces a role, `false` being the default. -/
def apply (id : AbsolutePathId) (apps : Keyed AppDefinition.id) (pods : Keyed PodDefinition.id)
    (groupsById : List (AbsolutePathId × Group)) (dependencies : Finset AbsolutePathId)
    (version : Timestamp) (enforceRole : Option Bool) : Group where
  id := id
  apps := apps
  pods := pods
  groupsById := groupsById
  dependencies := dependencies
  version := version
  enforceRole := if id.isTopLevel then enforceRole.or (some false) else none

def empty (id : AbsolutePathId) (enforceRole : Option Bool) (version : Timestamp) : Group :=
  apply id ∅ ∅ [] ∅ version enforceRole

theorem apply_of_isTopLevel {id : AbsolutePathId} {apps : Keyed AppDefinition.id}
    {pods : Keyed PodDefinition.id} {groupsById : List (AbsolutePathId × Group)}
    {dependencies : Finset AbsolutePathId} {version : Timestamp} {enforceRole : Option Bool}
    (h : enforceRole.isSome = id.isTopLevel) :
    apply id apps pods groupsById dependencies version enforceRole =
      ⟨id, apps, pods, groupsById, dependencies, version, enforceRole⟩ := by
  rw [apply, ← h]
  cases enforceRole <;> rfl

theorem isSome_enforceRole_apply (id : AbsolutePathId) (apps : Keyed AppDefinition.id)
    (pods : Keyed PodDefinition.id) (groupsById : List (AbsolutePathId × Group))
    (dependencies : Finset AbsolutePathId) (version : Timestamp) (enforceRole : Option Bool) :
    (apply id apps pods groupsById dependencies version enforceRole).enforceRole.isSome =
      id.isTopLevel := by
  rw [apply]
  cases id.isTopLevel <;> cases enforceRole <;> rfl

/-! ## What a group holds at any depth -/

section Transitive

variable {α : Type} (own : Group → List α)

mutual

/-- `own` of the group itself, then of the child groups at any depth. -/
def transitive : Group → List α
  | ⟨id, apps, pods, groupsById, dependencies, version, enforceRole⟩ =>
    own ⟨id, apps, pods, groupsById, dependencies, version, enforceRole⟩ ++
      transitiveEntries groupsById

def transitiveEntries : List (AbsolutePathId × Group) → List α
  | [] => []
  | entry :: entries => transitiveEntry entry ++ transitiveEntries entries

def transitiveEntry : AbsolutePathId × Group → List α
  | (_, group) => group.transitive

end

theorem transitive_eq (group : Group) :
    group.transitive own =
      own group ++ group.groupsById.flatMap fun entry => entry.2.transitive own := by
  obtain ⟨id, apps, pods, groupsById, dependencies, version, enforceRole⟩ := group
  have hentries : ∀ entries : List (AbsolutePathId × Group),
      transitiveEntries own entries = entries.flatMap fun entry => entry.2.transitive own := by
    intro entries
    induction entries with
    | nil => simp [transitiveEntries]
    | cons entry entries ih =>
      obtain ⟨id, group⟩ := entry
      rw [transitiveEntries, List.flatMap_cons, ih, transitiveEntry]
  simp only [transitive, hentries]

end Transitive

/-- The apps of the group and of its child groups, at any depth. -/
def transitiveApps (group : Group) : List AppDefinition :=
  group.transitive fun g => g.apps.values

/-- The pods of the group and of its child groups, at any depth. -/
def transitivePods (group : Group) : List PodDefinition :=
  group.transitive fun g => g.pods.values

end Group

end Marathon
