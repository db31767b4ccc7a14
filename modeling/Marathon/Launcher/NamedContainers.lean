import Marathon.Launcher.TaskGroupLaunch
import Marathon.Launcher.PackedPods

/-!
# Ids that name their containers

A task of a group is made of a container and of an id, and everything that is kept under the id is
taken to be about the container that the id names. On a reservation the two agree. Without one they
do exactly when the previous ids come, in the order of the map, as the containers do.
-/

namespace Marathon

open Lib Mesos ResourceMatcher TaskGroupBuilder

namespace InstanceOpFactoryImpl

/-- The id is one of the container, and a newer one than that of an earlier launch. -/
structure Continues (i : Instance) (c : MesosContainer) (taskId : TaskId) : Prop where
  named : taskId.containerName = some c.name
  newer : i.tasksMap.keys ≠ [] → ∃ previous ∈ i.tasksMap.keys,
    previous.containerName = some c.name ∧ taskId.Supersedes previous

/-- What is launched and persisted for a container is under an id of this container. -/
structure Attributed (o : PodOffer) (pod : PodDefinition) (i : Instance)
    (launch : TaskGroupLaunch) : Prop where
  continues : ∀ (k : ℕ) (c : MesosContainer) (t : GroupTask),
    pod.containers[k]? = some c → launch.groupInfo[k]? = some t → Continues i c t.taskId
  built : ∀ (k : ℕ) (c : MesosContainer) (t : GroupTask),
    pod.containers[k]? = some c → launch.groupInfo[k]? = some t →
      t.taskInfo.name = c.name ∧ t.volumeMounts = c.volumeMounts ∧
        t.endpoints = endpointAllocations pod (o.hostPorts pod i) c.name
  stateOp : launch.stateOp = .provision i.instanceId o.agentInfo (.pod pod) launch.tasks o.now
  persisted : ∀ taskId, taskId ∈ launch.tasks.values.map Task.taskId ↔
    taskId ∈ launch.groupInfo.map GroupTask.taskId
  networks : ∀ (k : ℕ) (c : MesosContainer) (t : GroupTask) (task : Task),
    pod.containers[k]? = some c → launch.groupInfo[k]? = some t → launch.tasks.lookup t.taskId = some task →
      task.status.networkInfo.hostPorts = taskHostPorts pod (o.hostPorts pod i) (some c.name)

/-- The ids come as the containers do. -/
def LinedUp (pod : PodDefinition) (taskIds : List TaskId) : Prop :=
  ∀ (k : ℕ) (c : MesosContainer) (taskId : TaskId),
    pod.containers[k]? = some c → taskIds[k]? = some taskId → taskId.containerName = some c.name

/-! ## A launch with given ids -/

section Built

variable {o : PodOffer} {pod : PodDefinition} {i : Instance} {launch : TaskGroupLaunch}
  {taskIds persistedIds : List TaskId} {served : MesosContainer → List Resource}
  {networkInfos : Dict TaskId NetworkInfo}

theorem mem_values_provisioned {version now : Timestamp} {tasks : Dict TaskId Task}
    (h : Tasks.provisioned persistedIds networkInfos version now = .ok tasks) (taskId : TaskId) :
    taskId ∈ tasks.values.map Task.taskId ↔ taskId ∈ persistedIds := by
  constructor
  · intro hmem
    obtain ⟨task, htask, rfl⟩ := List.mem_map.mp hmem
    obtain ⟨id, hlookup⟩ := Dict.mem_values.mp htask
    obtain ⟨hid, networkInfo, -, rfl⟩ := (Tasks.lookup_provisioned h id task).mp hlookup
    exact hid
  · intro hmem
    obtain ⟨task, hlookup⟩ := Tasks.lookup_ne_none_of_provisioned h hmem
    obtain ⟨-, networkInfo, -, rfl⟩ := (Tasks.lookup_provisioned h taskId task).mp hlookup
    exact List.mem_map.mpr ⟨_, Dict.mem_values.mpr ⟨taskId, hlookup⟩, rfl⟩

theorem attributed_iff_continues
    (hgroup : launch.groupInfo = (pod.containers.zip taskIds).map fun p =>
      ⟨⟨p.1.name, p.2, served p.1⟩, endpointAllocations pod (o.hostPorts pod i) p.1.name,
        p.1.volumeMounts⟩)
    (hinfos : buildTaskNetworkInfos pod o.hostname taskIds (o.hostPorts pod i) = .ok networkInfos)
    (htasks : Tasks.provisioned persistedIds networkInfos pod.version o.now = .ok launch.tasks)
    (hids : persistedIds = launch.groupInfo.map GroupTask.taskId)
    (hstate : launch.stateOp = .provision i.instanceId o.agentInfo (.pod pod) launch.tasks o.now) :
    Attributed o pod i launch ↔ ∀ (k : ℕ) (c : MesosContainer) (taskId : TaskId),
      pod.containers[k]? = some c → taskIds[k]? = some taskId → Continues i c taskId := by
  have hget : ∀ (k : ℕ) (c : MesosContainer) (t : GroupTask), pod.containers[k]? = some c →
      (launch.groupInfo[k]? = some t ↔ ∃ taskId, taskIds[k]? = some taskId ∧
        t = ⟨⟨c.name, taskId, served c⟩, endpointAllocations pod (o.hostPorts pod i) c.name,
          c.volumeMounts⟩) := by
    intro k c t hc
    rw [hgroup, List.getElem?_map, Option.map_eq_some_iff]
    constructor
    · rintro ⟨⟨c', taskId⟩, hzip, rfl⟩
      obtain ⟨hc', hid⟩ := List.getElem?_zip_eq_some.mp hzip
      cases hc'.symm.trans hc
      exact ⟨taskId, hid, rfl⟩
    · rintro ⟨taskId, hid, rfl⟩
      exact ⟨(c, taskId), List.getElem?_zip_eq_some.mpr ⟨hc, hid⟩, rfl⟩
  constructor
  · intro h k c taskId hc hid
    exact h.continues k c _ hc ((hget k c _ hc).mpr ⟨taskId, hid, rfl⟩)
  · intro h
    constructor
    case continues =>
      intro k c t hc ht
      obtain ⟨taskId, hid, rfl⟩ := (hget k c t hc).mp ht
      exact h k c taskId hc hid
    case built =>
      intro k c t hc ht
      obtain ⟨taskId, -, rfl⟩ := (hget k c t hc).mp ht
      exact ⟨rfl, rfl, rfl⟩
    case stateOp => exact hstate
    case persisted =>
      intro taskId
      rw [mem_values_provisioned htasks, hids]
    case networks =>
      intro k c t task hc ht hlookup
      obtain ⟨taskId, hid, rfl⟩ := (hget k c t hc).mp ht
      obtain ⟨-, networkInfo, hinfo, rfl⟩ := (Tasks.lookup_provisioned htasks _ task).mp hlookup
      rw [← (h k c taskId hc hid).named]
      exact lookup_of_buildTaskNetworkInfos hinfos hinfo

end Built

/-! ## The ids of the next launch -/

section NextIds

variable {pod : PodDefinition} {i : Instance} {taskIds : List TaskId}

theorem continues_nextTaskIds_iff :
    (∀ (k : ℕ) (c : MesosContainer) (taskId : TaskId), pod.containers[k]? = some c →
      (InstanceOpFactory.nextTaskIds i (InstanceOpFactory.containerNames pod))[k]? = some taskId →
        Continues i c taskId) ↔ LinedUp pod i.tasksMap.keys := by
  unfold InstanceOpFactory.nextTaskIds InstanceOpFactory.containerNames
  split_ifs with hkeys
  · constructor
    · intro h k c previous hc hprevious
      have hnext := h k c previous.nextIncarnationFor hc (by
        rw [List.getElem?_map, hprevious]
        rfl)
      rw [← previous.nextIncarnationFor_supersedes.containerName]
      exact hnext.named
    · intro h k c taskId hc hid
      rw [List.getElem?_map, Option.map_eq_some_iff] at hid
      obtain ⟨previous, hprevious, rfl⟩ := hid
      have hname := h k c previous hc hprevious
      have hnewer := previous.nextIncarnationFor_supersedes
      exact ⟨hnewer.containerName.trans hname, fun _ =>
        ⟨previous, List.mem_of_getElem? hprevious, hname, hnewer⟩⟩
  · rw [not_not] at hkeys
    constructor
    · intro _ k c previous _ hprevious
      rw [hkeys] at hprevious
      cases hprevious
    · intro _ k c taskId hc hid
      rw [List.map_map, List.getElem?_map, hc] at hid
      cases hid
      exact ⟨rfl, fun hne => absurd hkeys hne⟩

theorem continues_podContainerTaskIds
    (h : InstanceOpFactory.podContainerTaskIds pod i = .ok taskIds) :
    List.Forall₂ (Continues i) pod.containers taskIds := by
  unfold InstanceOpFactory.podContainerTaskIds at h
  dsimp only at h
  obtain ⟨byName, hbyName, h⟩ := bind_eq_ok.mp h
  unfold InstanceOpFactory.containerNameToTaskId at hbyName
  obtain ⟨entries, hentries, hbyName⟩ := bind_eq_ok.mp hbyName
  cases hbyName
  refine (forall₂_of_mapM_eq_ok h).imp fun c taskId hc => ?_
  have hlookup : (Dict.ofBindings entries).lookup c.name = some taskId := by
    split at hc
    · rename_i id hid
      exact hid.trans (congrArg some (Except.ok.inj hc))
    · cases hc
  have hentry := (Dict.lookup_ofBindings_spec entries c.name).1 taskId hlookup
  obtain ⟨next, hnext, hname⟩ := (mem_of_mapM_eq_ok hentries).mp hentry
  have hnamed : next = taskId ∧ taskId.containerName = some c.name := by
    split at hname
    · cases hname
      exact ⟨rfl, rfl⟩
    · cases hname
  obtain ⟨rfl, hnamed⟩ := hnamed
  refine ⟨hnamed, fun hkeys => ?_⟩
  rw [if_pos hkeys] at hnext
  obtain ⟨previous, hprevious, rfl⟩ := List.mem_map.mp hnext
  have hnewer := previous.nextIncarnationFor_supersedes
  exact ⟨previous, hprevious, hnewer.containerName.symm.trans hnamed, hnewer⟩

end NextIds

/-! ## The launch of a pod -/

section Launch

variable {o : PodOffer} {pod : PodDefinition} {i : Instance} {launch : TaskGroupLaunch}

theorem attributed_iff_of_inferPodInstanceOp (hresident : ¬(RunSpec.pod pod).isResident)
    (h : inferPodInstanceOp o pod i = .ok (some launch)) :
    Attributed o pod i launch ↔ LinedUp pod i.tasksMap.keys := by
  unfold inferPodInstanceOp at h
  split at h
  · rename_i resourceMatch hmatch
    have hports : o.hostPorts pod i = resourceMatch.portsMatch.hostPorts := by
      unfold PodOffer.hostPorts
      rw [if_neg hresident, hmatch]
      rfl
    obtain ⟨⟨executorInfo, groupInfo, networkInfos⟩, hgroup, h⟩ := bind_eq_ok.mp h
    obtain ⟨tasks, htasks, h⟩ := bind_eq_ok.mp h
    cases h
    obtain ⟨⟨served, hserved⟩, hinfos⟩ := buildTaskGroup_eq_ok hgroup
    rw [← hports] at hserved hinfos
    rw [← continues_nextTaskIds_iff]
    exact attributed_iff_continues hserved hinfos htasks rfl rfl
  · cases h

theorem attributed_of_launchOnReservation {volumes : List Resource} {resourceMatch : ResourceMatch}
    (hports : o.hostPorts pod i = resourceMatch.portsMatch.hostPorts)
    (h : launchOnReservation o pod i volumes resourceMatch = .ok launch) :
    Attributed o pod i launch := by
  obtain ⟨taskIds, hids, h⟩ := bind_eq_ok.mp h
  obtain ⟨⟨executorInfo, groupInfo, networkInfos⟩, hgroup, h⟩ := bind_eq_ok.mp h
  obtain ⟨tasks, htasks, h⟩ := bind_eq_ok.mp h
  cases h
  obtain ⟨⟨served, hserved⟩, hinfos⟩ := buildTaskGroup_eq_ok hgroup
  rw [← hports] at hserved hinfos
  have hcontinues := continues_podContainerTaskIds hids
  have htaskIds : taskIds = groupInfo.map GroupTask.taskId := by
    rw [show groupInfo = _ from hserved, List.map_map]
    exact (List.map_snd_zip hcontinues.length_eq.ge).symm
  apply (attributed_iff_continues hserved hinfos htasks htaskIds rfl).mpr
  intro k c taskId hc hid
  obtain ⟨hk, rfl⟩ := List.getElem?_eq_some_iff.mp hc
  obtain ⟨hk', rfl⟩ := List.getElem?_eq_some_iff.mp hid
  exact hcontinues.get hk hk'

/-- What is launched for a container, and its tasks and network infos, are under ids of this
container if the pod is on its reservation, and otherwise exactly if the previous ids come in the
map as the containers come in the pod. -/
theorem attributed_iff_linedUp (h : launchPod o i pod = .ok (some launch)) :
    Attributed o pod i launch ↔ (RunSpec.pod pod).isResident ∨ LinedUp pod i.tasksMap.keys := by
  unfold launchPod at h
  split_ifs at h with hresident hreservation
  · split at h
    · rename_i volumes resourceMatch hmatch
      obtain ⟨launch', hlaunch, h⟩ := bind_eq_ok.mp h
      cases Except.ok.inj h
      have hports : o.hostPorts pod i = resourceMatch.portsMatch.hostPorts := by
        unfold PodOffer.hostPorts
        rw [if_pos hresident, hmatch]
        rfl
      exact iff_of_true (attributed_of_launchOnReservation hports hlaunch) (.inl hresident)
    · cases h
  · cases h
  · rw [attributed_iff_of_inferPodInstanceOp hresident h]
    exact (or_iff_right hresident).symm

end Launch

namespace Crossed

/-! A pod of five containers with a port each is launched again. -/

def names : List String := ["web", "db", "cache", "log", "proxy"]

def container (name : String) : MesosContainer :=
  { plainContainer name with endpoints := [⟨name, none, some 0, [], ∅, []⟩] }

def pod : PodDefinition := { plainPod ⟨["site"]⟩ [] with containers := names.map container }

def instanceId : InstanceId := ⟨⟨["site"]⟩, .instance, ⟨0⟩⟩

def previousId (name : String) : TaskId := .ofContainer instanceId (some name)

def failedTask (name : String) : Task :=
  let task := Tasks.provisionedTask (previousId name) ⟨"agent", [], []⟩ ⟨0⟩ ⟨1⟩
  { task with status := { task.status with condition := .failed } }

/-- All tasks have failed; the map has them in the order of the names. -/
def failedInstance (names : List String) : Instance :=
  { Instance.scheduled (.pod pod) instanceId ⟨0⟩ with
    agentInfo := some plainAgent
    state := ⟨.failed, ⟨2⟩, none, none, .running⟩
    tasksMap := Dict.ofBindings <| names.map fun name => (previousId name, failedTask name) }

def ports : PortsMatch :=
  { Split.noPorts with hostPorts := [some 31000, some 31001, some 31002, some 31003, some 31004] }

def offer : PodOffer where
  hostname := "agent"
  agentInfo := plainAgent
  order := Split.listed
  matchOffer _ := some ⟨[], ports⟩
  matchReserved _ := none
  now := ⟨3⟩

theorem not_isResident : ¬(RunSpec.pod pod).isResident := by decide

theorem exists_inferPodInstanceOp {i : Instance}
    (h : (match inferPodInstanceOp offer pod i with
      | .ok launch => launch.isSome
      | .error _ => false) = true) :
    ∃ launch, inferPodInstanceOp offer pod i = .ok (some launch) := by
  split at h
  · rename_i launch hlaunch
    obtain ⟨launch, rfl⟩ := Option.isSome_iff_exists.mp h
    exact ⟨launch, hlaunch⟩
  · cases h

theorem linedUp_failedInstance : LinedUp pod (failedInstance names).tasksMap.keys := by
  have hkeys : (failedInstance names).tasksMap.keys = names.map previousId := by decide +kernel
  intro k c taskId hc hid
  have hcontainers : pod.containers = names.map container := rfl
  rw [hcontainers, List.getElem?_map, Option.map_eq_some_iff] at hc
  rw [hkeys, List.getElem?_map, Option.map_eq_some_iff] at hid
  obtain ⟨name, hname, rfl⟩ := hc
  obtain ⟨name', hname', rfl⟩ := hid
  cases hname.symm.trans hname'
  rfl

theorem exists_attributed :
    ∃ launch, launchPod offer (failedInstance names) pod = .ok (some launch) ∧
      Attributed offer pod (failedInstance names) launch := by
  obtain ⟨launch, hlaunch⟩ := exists_inferPodInstanceOp (i := failedInstance names)
    (by decide +kernel)
  have h : launchPod offer (failedInstance names) pod = .ok (some launch) := by
    rw [launchPod, if_neg not_isResident, hlaunch]
  exact ⟨launch, h, (attributed_iff_linedUp h).mpr (.inr linedUp_failedInstance)⟩

/-- In the order of a hash map the first two ids have changed places. -/
def crossedInstance : Instance := failedInstance ["db", "web", "cache", "log", "proxy"]

theorem not_forall_attributed :
    ¬ ∀ (o : PodOffer) (i : Instance) (pod : PodDefinition) (launch : TaskGroupLaunch),
      i.isScheduled → i.runSpec = .pod pod → launchPod o i pod = .ok (some launch) →
        Attributed o pod i launch := by
  intro h
  obtain ⟨launch, hlaunch⟩ := exists_inferPodInstanceOp (i := crossedInstance) (by decide +kernel)
  have hattributed := h offer crossedInstance pod launch (by decide +kernel) rfl (by
    rw [launchPod, if_neg not_isResident, hlaunch])
  have hlined := (attributed_iff_of_inferPodInstanceOp not_isResident hlaunch).mp hattributed
  have hweb := hlined 0 (container "web") (previousId "db") rfl (by decide +kernel)
  exact absurd hweb (by decide)

end Crossed

end InstanceOpFactoryImpl

end Marathon
