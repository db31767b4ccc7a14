import Marathon.State.RootGroup

/-!
# Editing a root group

The modifying operations of `RootGroup`, where the strategy for new groups creates them. A changed
group is put in the place of the old one, and all groups above it are rebuilt up to the root; those
that do not exist are created on the way, as by `mkdir -p`. There is no result where the source
throws.
-/

namespace Marathon

open Lib

/-- Whether groups enforce their role by default: never, or only the top-level ones do. -/
inductive NewGroupEnforceRoleBehavior
  | off
  | top
deriving DecidableEq

def NewGroupEnforceRoleBehavior.option : NewGroupEnforceRoleBehavior → Option Bool
  | off => some false
  | top => some true

/-- An update function for apps, which keeps their ids. -/
structure AppUpdate where
  run : AppDefinition → AppDefinition
  id_run : ∀ app, (run app).id = app.id

namespace Group

def withDependencies (g : Group) (dependencies : Finset AbsolutePathId) : Group :=
  { g with dependencies := dependencies }

/-- The group directly or indirectly contains app definitions. -/
def containsApps (g : Group) : Bool :=
  (g.transitive fun h => [!h.apps.values.isEmpty]).any fun nonEmpty => nonEmpty

def containsPods (g : Group) : Bool :=
  (g.transitive fun h => [!h.pods.values.isEmpty]).any fun nonEmpty => nonEmpty

/-- The child groups without the one under the id. -/
def eraseEntry (id : AbsolutePathId) (entries : List (AbsolutePathId × Group)) :
    List (AbsolutePathId × Group) :=
  entries.filter fun e => e.1 ≠ id

/-- The child groups with one more under its id. -/
def putEntry (child : Group) (entries : List (AbsolutePathId × Group)) :
    List (AbsolutePathId × Group) :=
  (child.id, child) :: eraseEntry child.id entries

section Rebuild

variable (apps : Keyed AppDefinition.id → Keyed AppDefinition.id) (version : Timestamp)

mutual

/-- The group and the child groups at any depth, with their apps changed and the version. -/
def rebuild : Group → Group
  | ⟨id, own, pods, groupsById, dependencies, _, enforceRole⟩ =>
    apply id (apps own) pods (rebuildEntries groupsById) dependencies version enforceRole

def rebuildEntries : List (AbsolutePathId × Group) → List (AbsolutePathId × Group)
  | [] => []
  | entry :: entries => rebuildEntry entry :: rebuildEntries entries

def rebuildEntry : AbsolutePathId × Group → AbsolutePathId × Group
  | (id, group) => (id, group.rebuild)

end

end Rebuild

/-- The private `updateVersion` of the source. -/
def updateVersionOf (g : Group) (version : Timestamp) : Group := g.rebuild (fun apps => apps) version

/-- The local `updateApps` of `updateTransitiveApps`. -/
def updateAppsOf (g : Group) (app : AppUpdate) (version : Timestamp) : Group :=
  g.rebuild (fun apps => apps.map app.run app.id_run) version

/-- `NewGroupStrategy.UsingConfig`. -/
def newGroup (behavior : NewGroupEnforceRoleBehavior) (id : AbsolutePathId) : Group :=
  apply id ∅ ∅ [] ∅ ⟨0⟩ (if id.isTopLevel then behavior.option else none)

/-- `RootGroup.fromGroup`, which requires the id to be that of the root. -/
def fromGroup (g : Group) : Option RootGroup :=
  if g.id.isRoot then some { g with id := .root, enforceRole := none } else none

/-! ## The operations -/

section Operations

variable (root : RootGroup) (behavior : NewGroupEnforceRoleBehavior)

/-- The group at the path, or a new one. -/
def groupOrNew (id : AbsolutePathId) : Group := (root.group id).getD (newGroup behavior id)

/-- The group in the place of the old one in all its parents, the nearest first. -/
def rebuildTree (version : Timestamp) : List AbsolutePathId → Group → Group
  | [], result => result
  | head :: tail, result =>
    let oldParent := root.groupOrNew behavior head
    rebuildTree version tail <|
      apply oldParent.id oldParent.apps oldParent.pods (putEntry result oldParent.groupsById)
        oldParent.dependencies version oldParent.enforceRole

/-- Add or replace a group. Groups on its path that do not exist are created empty. -/
def putGroup (newGroup : Group) (version : Timestamp) : Option RootGroup :=
  fromGroup <| updateVersionOf (root.rebuildTree behavior version newGroup.id.allParents newGroup)
    version

/-- The version of the root group is preserved. -/
def makeGroup (groupId : AbsolutePathId) : Option RootGroup :=
  match root.group groupId with
  | none => root.putGroup behavior (newGroup behavior groupId) root.version
  | some _ => some root

def updateTransitiveApps (groupId : AbsolutePathId) (app : AppUpdate) (version : Timestamp) :
    Option RootGroup :=
  root.putGroup behavior ((root.groupOrNew behavior groupId).updateAppsOf app version) version

def updateApps (groupId : AbsolutePathId)
    (apps : Keyed AppDefinition.id → Keyed AppDefinition.id) (version : Timestamp) :
    Option RootGroup :=
  let oldGroup := root.groupOrNew behavior groupId
  root.putGroup behavior
    (apply oldGroup.id (apps oldGroup.apps) oldGroup.pods oldGroup.groupsById
      oldGroup.dependencies version oldGroup.enforceRole) version

def updateDependencies (groupId : AbsolutePathId)
    (dependencies : Finset AbsolutePathId → Finset AbsolutePathId) (version : Timestamp) :
    Option RootGroup :=
  let oldGroup := root.groupOrNew behavior groupId
  root.putGroup behavior (oldGroup.withDependencies (dependencies oldGroup.dependencies)) version

/-- The child groups without one that has the id and contains no app and no pod. Validation
should catch other conflicts later. -/
def withoutConflicting (id : AbsolutePathId) (entries : List (AbsolutePathId × Group)) :
    List (AbsolutePathId × Group) :=
  entries.filter fun e => e.2.id ≠ id || e.2.containsApps || e.2.containsPods

/-- The app id must not be changed by `fn`. -/
def updateApp (appId : AbsolutePathId) (fn : Option AppDefinition → AppDefinition)
    (version : Timestamp) : Option RootGroup :=
  let oldGroup := root.groupOrNew behavior appId.parent
  let newApp := fn (root.app appId)
  if newApp.id = appId then
    root.putGroup behavior
      (apply oldGroup.id (oldGroup.apps.insert newApp) oldGroup.pods
        (withoutConflicting newApp.id oldGroup.groupsById) oldGroup.dependencies version
        oldGroup.enforceRole) version
  else
    none

/-- The pod id must not be changed by `fn`. -/
def updatePod (podId : AbsolutePathId) (fn : Option PodDefinition → PodDefinition)
    (version : Timestamp) : Option RootGroup :=
  let oldGroup := root.groupOrNew behavior podId.parent
  let newPod := fn (root.pod podId)
  if newPod.id = podId then
    root.putGroup behavior
      (apply oldGroup.id oldGroup.apps (oldGroup.pods.insert newPod)
        (withoutConflicting newPod.id oldGroup.groupsById) oldGroup.dependencies version
        oldGroup.enforceRole) version
  else
    none

/-- The update does not change the version of the group. -/
def updateGroup (groupId : AbsolutePathId) (fn : Option Group → Group) : Option RootGroup :=
  let updatedGroup := fn (root.group groupId)
  root.putGroup behavior updatedGroup updatedGroup.version

def updateVersion (version : Timestamp) : Option RootGroup :=
  fromGroup (updateVersionOf root version)

/-- The root group cannot be removed. -/
def removeGroup (groupId : AbsolutePathId) (version : Timestamp) : Option RootGroup :=
  if groupId.isRoot then
    none
  else
    match root.group groupId with
    | none => root.updateVersion version
    | some oldGroup => do
      let oldParent ← root.group oldGroup.id.parent
      root.putGroup behavior
        (apply oldParent.id oldParent.apps oldParent.pods
          (eraseEntry oldGroup.id oldParent.groupsById) oldParent.dependencies version
          oldParent.enforceRole) version

def removeApp (appId : AbsolutePathId) (version : Timestamp) : Option RootGroup :=
  match root.app appId with
  | none => root.updateVersion version
  | some oldApp => do
    let oldGroup ← root.group oldApp.id.parent
    root.putGroup behavior
      (apply oldGroup.id (oldGroup.apps.erase oldApp.id) oldGroup.pods oldGroup.groupsById
        oldGroup.dependencies version oldGroup.enforceRole) version

def removePod (podId : AbsolutePathId) (version : Timestamp) : Option RootGroup :=
  match root.pod podId with
  | none => root.updateVersion version
  | some oldPod => do
    let oldGroup ← root.group oldPod.id.parent
    root.putGroup behavior
      (apply oldGroup.id oldGroup.apps (oldGroup.pods.erase oldPod.id) oldGroup.groupsById
        oldGroup.dependencies version oldGroup.enforceRole) version

end Operations

end Group

/-- An operation on a root group, with what it is given. -/
inductive Edit
  | putGroup (newGroup : Group) (version : Timestamp)
  | makeGroup (groupId : AbsolutePathId)
  | updateTransitiveApps (groupId : AbsolutePathId) (app : AppUpdate) (version : Timestamp)
  | updateApps (groupId : AbsolutePathId)
      (apps : Keyed AppDefinition.id → Keyed AppDefinition.id) (version : Timestamp)
  | updateDependencies (groupId : AbsolutePathId)
      (dependencies : Finset AbsolutePathId → Finset AbsolutePathId) (version : Timestamp)
  | updateApp (appId : AbsolutePathId) (fn : Option AppDefinition → AppDefinition)
      (version : Timestamp)
  | updatePod (podId : AbsolutePathId) (fn : Option PodDefinition → PodDefinition)
      (version : Timestamp)
  | updateGroup (groupId : AbsolutePathId) (fn : Option Group → Group)
  | updateVersion (version : Timestamp)
  | removeGroup (groupId : AbsolutePathId) (version : Timestamp)
  | removeApp (appId : AbsolutePathId) (version : Timestamp)
  | removePod (podId : AbsolutePathId) (version : Timestamp)

def Edit.run (root : RootGroup) (behavior : NewGroupEnforceRoleBehavior) :
    Edit → Option RootGroup
  | putGroup newGroup version => root.putGroup behavior newGroup version
  | makeGroup groupId => root.makeGroup behavior groupId
  | updateTransitiveApps groupId app version =>
    root.updateTransitiveApps behavior groupId app version
  | updateApps groupId apps version => root.updateApps behavior groupId apps version
  | updateDependencies groupId dependencies version =>
    root.updateDependencies behavior groupId dependencies version
  | updateApp appId fn version => root.updateApp behavior appId fn version
  | updatePod podId fn version => root.updatePod behavior podId fn version
  | updateGroup groupId fn => root.updateGroup behavior groupId fn
  | updateVersion version => root.updateVersion version
  | removeGroup groupId version => root.removeGroup behavior groupId version
  | removeApp appId version => root.removeApp behavior appId version
  | removePod podId version => root.removePod behavior podId version

end Marathon
