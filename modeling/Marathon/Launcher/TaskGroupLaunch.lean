import Marathon.Launcher.InstanceOp
import Marathon.Launcher.TaskGroupBuilder

/-!
# Launching the task group of a pod

The ids of the tasks of a pod, the network infos under these ids, and the two ways to an operation
that launches the group: a pod without a reservation has its ids paired with the containers by their
positions, a pod on its reservation by the names in the ids.
-/

namespace Marathon

open Lib Mesos ResourceMatcher TaskGroupBuilder

namespace TaskGroupBuilder

def Throwable.thrown : Throwable → Thrown
  | assertionError => .assertionError
  | illegalStateException _ => .illegalState

/-! ## Ports by the names of containers -/

/-- All endpoints of a pod, each with the name of its container. -/
def endpointsByCTName (pod : PodDefinition) : List (String × Endpoint) :=
  pod.containers.flatMap fun ct => ct.endpoints.map fun ep => (ct.name, ep)

/-- `endpointAllocationsPerContainer`, looked up. -/
def endpointAllocations (pod : PodDefinition) (hostPorts : List (Option ℕ)) (name : String) :
    List Endpoint :=
  (((endpointsByCTName pod).zip hostPorts).filter fun p => p.1.1 = name).map fun p =>
    { p.1.2 with hostPort := p.2.map Int.ofNat }

def allocPortsByCTName (pod : PodDefinition) (hostPorts : List (Option ℕ)) : List (String × ℤ) :=
  ((endpointsByCTName pod).zip hostPorts).filterMap fun p =>
    match p.1.2.hostPort, p.2 with
    | some _, some allocatedPort => some (p.1.1, (allocatedPort : ℤ))
    | _, _ => none

/-- The task level host ports, which are those of the container that the id names. -/
def taskHostPorts (pod : PodDefinition) (hostPorts : List (Option ℕ)) :
    Option String → List ℤ
  | some ctName => ((allocPortsByCTName pod hostPorts).filter fun p => p.1 = ctName).map Prod.snd
  | none => []

def buildTaskNetworkInfos (pod : PodDefinition) (host : String) (taskIDs : List TaskId)
    (hostPorts : List (Option ℕ)) : Except Thrown (Dict TaskId NetworkInfo) :=
  if (endpointsByCTName pod).length ≠ hostPorts.length ∨ some 0 ∈ hostPorts then
    .error .illegalArgument
  else
    .ok <| Dict.ofBindings <| taskIDs.map fun taskId =>
      (taskId, ⟨host, taskHostPorts pod hostPorts taskId.containerName, []⟩)

/-! ## The task group -/

/-- A task of the group, with the endpoints and the volume mounts of its container. -/
structure GroupTask where
  taskInfo : TaskInfo
  endpoints : List Endpoint
  volumeMounts : List VolumeMount
deriving DecidableEq

def GroupTask.taskId (t : GroupTask) : TaskId := t.taskInfo.taskId

/-- `TaskGroupBuilder.build`, without the plugins. -/
def buildTaskGroup (order : MapOrder) (pod : PodDefinition) (hostname : String)
    (taskIds : List TaskId) (resourceMatch : ResourceMatch)
    (persistentVolumeResources : List Resource) :
    Except Thrown (ExecutorInfo × List GroupTask × Dict TaskId NetworkInfo) := do
  let hostPorts := resourceMatch.portsMatch.hostPorts
  -- what the networks of the executor assume
  if (endpointsByCTName pod).length ≠ hostPorts.length then
    throw .assertionError
  let built ← (build order pod taskIds resourceMatch persistentVolumeResources).mapError
    Throwable.thrown
  let taskGroup := (pod.containers.zip built.2).map fun p =>
    ⟨p.2, endpointAllocations pod hostPorts p.1.name, p.1.volumeMounts⟩
  let networkInfos ← buildTaskNetworkInfos pod hostname taskIds hostPorts
  return (built.1, taskGroup, networkInfos)

end TaskGroupBuilder

/-! ## The operations of the factory -/

/-- What a launch needs of an offer and of its matching. -/
structure PodOffer where
  hostname : String
  agentInfo : AgentInfo
  order : MapOrder
  /-- `RunSpecOfferMatcher.matchOffer`. -/
  matchOffer : PodDefinition → Option ResourceMatch
  /-- The volumes of an instance that are found in the offer, and the resources that are reserved
  for it there. -/
  matchReserved : Instance → Option (List Resource × ResourceMatch)
  now : Timestamp

/-- The host ports of the matching that is launched with. -/
def PodOffer.hostPorts (o : PodOffer) (pod : PodDefinition) (i : Instance) : List (Option ℕ) :=
  let resourceMatch :=
    if (RunSpec.pod pod).isResident then (o.matchReserved i).map Prod.snd else o.matchOffer pod
  (resourceMatch.map fun m => m.portsMatch.hostPorts).getD []

/-- An operation that launches a task group, with the group and with the tasks of the `Provision`. -/
structure TaskGroupLaunch where
  executorInfo : ExecutorInfo
  groupInfo : List GroupTask
  tasks : Dict TaskId Task
  stateOp : InstanceUpdateOperation
  oldInstance : Option Instance

def TaskGroupLaunch.op (launch : TaskGroupLaunch) : InstanceOp :=
  .launchTaskGroup launch.stateOp launch.oldInstance

namespace InstanceOpFactoryImpl

def inferPodInstanceOp (o : PodOffer) (pod : PodDefinition) (scheduledInstance : Instance) :
    Except Thrown (Option TaskGroupLaunch) :=
  match o.matchOffer pod with
  | some resourceMatch => do
    let instanceId := scheduledInstance.instanceId
    let taskIds := InstanceOpFactory.nextTaskIds scheduledInstance
      (InstanceOpFactory.containerNames pod)
    let (executorInfo, groupInfo, networkInfos) ←
      buildTaskGroup o.order pod o.hostname taskIds resourceMatch []
    let taskIDs := groupInfo.map GroupTask.taskId
    let tasks ← Tasks.provisioned taskIDs networkInfos pod.version o.now
    let stateOp := .provision instanceId o.agentInfo (.pod pod) tasks o.now
    return some ⟨executorInfo, groupInfo, tasks, stateOp, none⟩
  | none => return none

/-- The branch for pods. -/
def launchOnReservation (o : PodOffer) (pod : PodDefinition) (reservedInstance : Instance)
    (volumes : List Resource) (resourceMatch : ResourceMatch) : Except Thrown TaskGroupLaunch := do
  let podContainerTaskIds ← InstanceOpFactory.podContainerTaskIds pod reservedInstance
  let (executorInfo, groupInfo, networkInfos) ←
    buildTaskGroup o.order pod o.hostname podContainerTaskIds resourceMatch volumes
  let provisionedTasks ← Tasks.provisioned podContainerTaskIds networkInfos pod.version o.now
  let stateOp :=
    .provision reservedInstance.instanceId o.agentInfo (.pod pod) provisionedTasks o.now
  return ⟨executorInfo, groupInfo, provisionedTasks, stateOp, some reservedInstance⟩

/-- The launch of one scheduled instance of a pod: a resident pod is launched on a reservation. -/
def launchPod (o : PodOffer) (i : Instance) (pod : PodDefinition) :
    Except Thrown (Option TaskGroupLaunch) :=
  if (RunSpec.pod pod).isResident then
    if i.hasReservation then
      match o.matchReserved i with
      | some (volumes, resourceMatch) => do
        let launch ← launchOnReservation o pod i volumes resourceMatch
        return some launch
      | none => return none
    else return none
  else inferPodInstanceOp o pod i

end InstanceOpFactoryImpl

/-! ## What is built -/

namespace TaskGroupBuilder

theorem zip_map_zip {α β γ : Type} (f : α × β → γ) (l : List α) (l' : List β) :
    l.zip ((l.zip l').map f) = (l.zip l').map fun p => (p.1, f p) := by
  induction l generalizing l' with
  | nil => rfl
  | cons a l ih =>
    cases l' with
    | nil => rfl
    | cons b l' =>
      rw [List.zip_cons_cons, List.map_cons, List.zip_cons_cons, ih, List.map_cons]

variable {order : MapOrder} {pod : PodDefinition} {hostname : String} {taskIds : List TaskId}
  {m : ResourceMatch} {volumes : List Resource}
  {result : ExecutorInfo × List GroupTask × Dict TaskId NetworkInfo}

/-- The tasks of the group are made of the containers and of the ids at their positions. -/
theorem buildTaskGroup_eq_ok
    (h : buildTaskGroup order pod hostname taskIds m volumes = .ok result) :
    (∃ served : MesosContainer → List Resource, result.2.1 = (pod.containers.zip taskIds).map fun p =>
      ⟨⟨p.1.name, p.2, served p.1⟩, endpointAllocations pod m.portsMatch.hostPorts p.1.name,
        p.1.volumeMounts⟩) ∧
      buildTaskNetworkInfos pod hostname taskIds m.portsMatch.hostPorts = .ok result.2.2 := by
  unfold buildTaskGroup at h
  dsimp only at h
  split_ifs at h with hlength
  · cases h
  · obtain ⟨built, hbuild, h⟩ := bind_eq_ok.mp h
    obtain ⟨networkInfos, hinfos, h⟩ := bind_eq_ok.mp h
    cases h
    refine ⟨?_, hinfos⟩
    cases hresult : build order pod taskIds m volumes with
    | error e =>
      rw [hresult] at hbuild
      cases hbuild
    | ok executorAndTasks =>
      rw [hresult] at hbuild
      cases hbuild
      obtain ⟨ks, -, rfl⟩ := build_eq_ok hresult
      refine ⟨fun c => serve order pod m ks c.resources, ?_⟩
      rw [TaskGroupBuilder.built, zip_map_zip, List.map_map]
      rfl

theorem lookup_of_buildTaskNetworkInfos {hostPorts : List (Option ℕ)}
    {networkInfos : Dict TaskId NetworkInfo}
    (h : buildTaskNetworkInfos pod hostname taskIds hostPorts = .ok networkInfos) {taskId : TaskId}
    {networkInfo : NetworkInfo} (hlookup : networkInfos.lookup taskId = some networkInfo) :
    networkInfo.hostPorts = taskHostPorts pod hostPorts taskId.containerName := by
  unfold buildTaskNetworkInfos at h
  split_ifs at h
  cases h
  have hmem := (Dict.lookup_ofBindings_spec _ taskId).1 networkInfo hlookup
  obtain ⟨id, -, heq⟩ := List.mem_map.mp hmem
  cases heq
  rfl

end TaskGroupBuilder

end Marathon
