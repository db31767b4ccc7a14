import Marathon.Raml.AppTypes
import Marathon.State.CanonicalPath
import Marathon.State.RootGroupEdit

/-!
# Group conversion

A group update replaces what it defines of a group: the apps, the child groups, the dependencies.
There is one function for the groups that exist and one for the groups that are new; either
canonicalises the ids of its level. A call that throws gives `none`.
-/

namespace Marathon

open Lib

namespace Raml

/-- The sets of apps and of child groups are lists in the order of their iteration. -/
structure GroupUpdate where
  id : Option String
  apps : Option (List App)
  groups : Option (List GroupUpdate)
  dependencies : Option (Finset String)
  scaleBy : Option ℚ
  version : Option Timestamp
  enforceRole : Option Bool

namespace UpdateGroupStructureOp

def requireGroupPath (groupUpdate : GroupUpdate) : Option PathId :=
  groupUpdate.id.map PathId.ofText

def normalizeAppDefinition (version : Timestamp) (app : AppDefinition) : AppDefinition :=
  { app with versionInfo := .onlyVersion version }

def normalizeApp (pathNormalization : String → String) (app : App) : App :=
  { app with
    id := pathNormalization app.id
    dependencies := app.dependencies.image pathNormalization }

/-- The app definitions under their ids, the last one of each id. -/
def appsById (apps : List AppDefinition) : Keyed AppDefinition.id := apps.foldl Keyed.insert ∅

/-- The groups under their ids, the last one of each id. -/
def groupsById (groups : List Group) : List (AbsolutePathId × Group) :=
  groups.foldl (fun entries group => Group.putEntry group entries) []

def canonicalIds (dependencies : Finset String) (gid : AbsolutePathId) : Finset AbsolutePathId :=
  dependencies.image fun id => (PathId.ofText id).canonicalPath gid

section Operations

variable (cf : App → Option AppDefinition) (timestamp : Timestamp)

def createApps (apps : List App) (gid : AbsolutePathId) : Option (Keyed AppDefinition.id) :=
  let pathNormalization := fun id => ((PathId.ofText id).canonicalPath gid).string
  (apps.mapM fun currentApp => cf (normalizeApp pathNormalization currentApp)).map fun apps =>
    appsById (apps.map (normalizeAppDefinition timestamp))

mutual

/-- A new group from an update. -/
def createGroup : GroupUpdate → AbsolutePathId → Option Group
  | ⟨_, apps, groups, dependencies, _, _, enforceRole⟩, gid => do
    let appsById ← createApps cf timestamp (apps.getD []) gid
    let groupsById ← createGroupsById groups gid
    some (.apply gid appsById ∅ groupsById
      (dependencies.elim ∅ fun dependencies => canonicalIds dependencies gid) timestamp enforceRole)

def createGroupsById :
    Option (List GroupUpdate) → AbsolutePathId → Option (List (AbsolutePathId × Group))
  | none, _ => some []
  | some updates, gid => (createGroups updates gid).map groupsById

def createGroups : List GroupUpdate → AbsolutePathId → Option (List Group)
  | [], _ => some []
  | currentGroup :: updates, gid => do
    let id ← requireGroupPath currentGroup
    let group ← createGroup currentGroup (id.canonicalPath gid)
    let groups ← createGroups updates gid
    some (group :: groups)

end

def effectiveApps (apps : Option (List App)) (current : Group) :
    Option (Keyed AppDefinition.id) :=
  (apps.elim (some current.apps.values) fun apps => apps.mapM cf).map fun apps =>
    appsById (apps.map (normalizeAppDefinition timestamp))

mutual

/-- The update of a group that exists. What is not defined is that of the current group. -/
def execute : GroupUpdate → Group → Option Group
  | ⟨_, apps, groups, dependencies, scaleBy, version, enforceRole⟩, current =>
    if scaleBy.isSome ∨ version.isSome ∨ enforceRole.isNone then none else do
      let effectiveGroups ← effectiveGroups groups current
      let effectiveApps ← effectiveApps cf timestamp apps current
      some (.apply current.id effectiveApps current.pods effectiveGroups
        (dependencies.elim current.dependencies fun dependencies =>
          canonicalIds dependencies current.id) timestamp enforceRole)

def effectiveGroups :
    Option (List GroupUpdate) → Group → Option (List (AbsolutePathId × Group))
  | none, current => some current.groupsById
  | some updates, current => (newGroups updates current).map groupsById

/-- The child group is updated, or created if there is none. -/
def newGroups : List GroupUpdate → Group → Option (List Group)
  | [], _ => some []
  | groupUpdate :: updates, current => do
    let path ← requireGroupPath groupUpdate
    let gid := path.canonicalPath current.id
    let newGroup ← (current.groupsById.lookup gid).elim (createGroup cf timestamp groupUpdate gid)
      fun group => execute groupUpdate group
    let groups ← newGroups updates current
    some (newGroup :: groups)

end

end Operations

end UpdateGroupStructureOp

end Raml

end Marathon
