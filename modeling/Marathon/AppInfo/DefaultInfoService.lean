import Marathon.State.RootGroup

/-!
# Queries of apps, pods and groups

`DefaultInfoService` answers with what the selectors of the caller accept. A group is shown if it is
accepted, or something below it. Whether a group matches is kept, so that it is found out once.
-/

namespace Marathon.AppInfo

open Lib

structure Selectors where
  appSelector : AppDefinition → Bool
  podSelector : PodDefinition → Bool
  groupSelector : Group → Bool

namespace Selectors

def all : Selectors := ⟨fun _ => true, fun _ => true, fun _ => true⟩

def none : Selectors := ⟨fun _ => false, fun _ => false, fun _ => false⟩

end Selectors

/-- `GroupInfo.Embed` -/
inductive Embed
  | groups
  | apps
  | pods
deriving DecidableEq

/-- What is known of an app or a pod apart from its definition. The id that is read from it is that
of the definition. -/
structure AppInfoBaseData (AppInfo PodStatus : Type) where
  appInfo : AppDefinition → AppInfo
  podStatus : PodDefinition → PodStatus
  infoId : AppInfo → AbsolutePathId
  statusId : PodStatus → AbsolutePathId
  infoId_appInfo : ∀ app, infoId (appInfo app) = app.id
  statusId_podStatus : ∀ pod, statusId (podStatus pod) = pod.id

structure GroupInfo (AppInfo PodStatus : Type) where
  id : String
  apps : List AppInfo
  pods : List PodStatus
  groups : List (GroupInfo AppInfo PodStatus)
  dependencies : Finset AbsolutePathId
  version : Timestamp
  enforceRole : Option Bool

/-- No case of a match applies. -/
inductive MatchError
  | app (app : AppDefinition)

variable {AppInfo PodStatus : Type} (baseData : AppInfoBaseData AppInfo PodStatus)

/-! ## Apps and pods -/

def resolveAppInfos (specs : List AppDefinition) : List AppInfo := specs.map baseData.appInfo

def resolvePodInfos (specs : List PodDefinition) : List PodStatus := specs.map baseData.podStatus

def selectPodStatus (root : RootGroup) (id : AbsolutePathId) (selector : PodDefinition → Bool) :
    Option PodStatus :=
  ((root.pod id).filter selector).map baseData.podStatus

/-- There is no case for an app that the selector does not accept. -/
def selectApp (root : RootGroup) (id : AbsolutePathId) (selector : AppDefinition → Bool) :
    Except MatchError (Option AppInfo) :=
  match root.app id with
  | some app => if selector app then .ok (some (baseData.appInfo app)) else .error (.app app)
  | none => .ok none

def selectAppsInGroup (root : RootGroup) (groupId : AbsolutePathId)
    (selector : AppDefinition → Bool) : List AppInfo :=
  match (root.group groupId).map fun group => group.transitiveApps.filter selector with
  | some selectedApps => resolveAppInfos baseData selectedApps
  | none => []

/-! ## Groups -/

/-- The groups of which it is known whether they match. -/
abbrev AlreadyMatched := Dict AbsolutePathId Bool

section GroupMatches

variable (groupSelector : Group → Bool) (infoById : Dict AbsolutePathId AppInfo)
  (statusById : Dict AbsolutePathId PodStatus)

mutual

/-- If a subgroup is allowed, so are its parents. What is kept of a group leaves out its pods. -/
def groupMatches : Group → AlreadyMatched → Bool × AlreadyMatched
  | ⟨id, apps, pods, groupsById, dependencies, version, enforceRole⟩, alreadyMatched =>
    let (matched, alreadyMatched) := match alreadyMatched.lookup id with
      | some matched => (matched, alreadyMatched)
      | none =>
        let (matched, alreadyMatched) :=
          if groupSelector ⟨id, apps, pods, groupsById, dependencies, version, enforceRole⟩ then
            (true, alreadyMatched)
          else
            let (below, alreadyMatched) := entriesMatch groupsById alreadyMatched
            (below || apps.keys.any (infoById.lookup · |>.isSome), alreadyMatched)
        (matched, alreadyMatched.insert id matched)
    (matched || pods.keys.any (statusById.lookup · |>.isSome), alreadyMatched)

def entriesMatch : List (AbsolutePathId × Group) → AlreadyMatched → Bool × AlreadyMatched
  | [], alreadyMatched => (false, alreadyMatched)
  | entry :: entries, alreadyMatched =>
    let (matched, alreadyMatched) := entryMatches entry alreadyMatched
    if matched then (true, alreadyMatched) else entriesMatch entries alreadyMatched

def entryMatches : AbsolutePathId × Group → AlreadyMatched → Bool × AlreadyMatched
  | (_, group), alreadyMatched => groupMatches group alreadyMatched

end

variable (groupEmbed : Finset Embed)

mutual

def queryGroup : Group → AlreadyMatched → Option (GroupInfo AppInfo PodStatus) × AlreadyMatched
  | ⟨id, apps, pods, groupsById, dependencies, version, enforceRole⟩, alreadyMatched =>
    let (matched, alreadyMatched) := groupMatches groupSelector infoById statusById
      ⟨id, apps, pods, groupsById, dependencies, version, enforceRole⟩ alreadyMatched
    if matched then
      let (groups, alreadyMatched) :=
        if Embed.groups ∈ groupEmbed then queryEntries groupsById alreadyMatched
        else ([], alreadyMatched)
      (some {
        id := id.string
        apps := if Embed.apps ∈ groupEmbed then apps.keys.filterMap infoById.lookup else []
        pods := if Embed.pods ∈ groupEmbed then pods.keys.filterMap statusById.lookup else []
        groups := groups
        dependencies := dependencies
        version := version
        enforceRole := enforceRole }, alreadyMatched)
    else (none, alreadyMatched)

def queryEntries : List (AbsolutePathId × Group) → AlreadyMatched →
    List (GroupInfo AppInfo PodStatus) × AlreadyMatched
  | [], alreadyMatched => ([], alreadyMatched)
  | entry :: entries, alreadyMatched =>
    let (info, alreadyMatched) := queryEntry entry alreadyMatched
    let (infos, alreadyMatched) := queryEntries entries alreadyMatched
    (info.toList ++ infos, alreadyMatched)

def queryEntry : AbsolutePathId × Group → AlreadyMatched →
    Option (GroupInfo AppInfo PodStatus) × AlreadyMatched
  | (_, group), alreadyMatched => queryGroup group alreadyMatched

end

end GroupMatches

def infoById (group : Group) (selectors : Selectors) : Dict AbsolutePathId AppInfo :=
  Dict.insertAll ∅ <| (resolveAppInfos baseData
    (group.transitiveApps.filter selectors.appSelector)).map fun info => (baseData.infoId info, info)

def statusById (group : Group) (selectors : Selectors) : Dict AbsolutePathId PodStatus :=
  Dict.insertAll ∅ <| (resolvePodInfos baseData
    (group.transitivePods.filter selectors.podSelector)).map fun status =>
      (baseData.statusId status, status)

def queryForGroup (group : Group) (selectors : Selectors) (groupEmbed : Finset Embed) :
    Option (GroupInfo AppInfo PodStatus) :=
  let infoById := if Embed.apps ∈ groupEmbed then infoById baseData group selectors else ∅
  let statusById := if Embed.pods ∈ groupEmbed then statusById baseData group selectors else ∅
  (queryGroup selectors.groupSelector infoById statusById groupEmbed group ∅).1

def selectGroup (root : RootGroup) (groupId : AbsolutePathId) (selectors : Selectors)
    (groupEmbed : Finset Embed) : Option (GroupInfo AppInfo PodStatus) :=
  match root.group groupId with
  | some group => queryForGroup baseData group selectors groupEmbed
  | none => none

end Marathon.AppInfo
