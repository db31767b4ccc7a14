import Marathon.Instance.InstanceUpdate
import Marathon.Lib.Future

/-!
# Operations on offers

`InstanceOp` without what it tells Mesos, and `InstanceOpFactoryImpl`, which makes one for an
offer that matches.
-/

namespace Marathon

open Lib

inductive InstanceOp
  | launchTask (stateOp : InstanceUpdateOperation) (oldInstance : Option Instance)
  | launchTaskGroup (stateOp : InstanceUpdateOperation) (oldInstance : Option Instance)
  /-- The operation on the state is a `Reserve`. -/
  | reserveAndCreateVolumes (instanceId : InstanceId) (reservation : Reservation)
      (agentInfo : AgentInfo)
  | unreserveAndDestroyVolumes (stateOp : InstanceUpdateOperation) (oldInstance : Option Instance)

namespace InstanceOp

/-- The operation that leads to the state after this one has been applied. -/
def stateOp : InstanceOp → InstanceUpdateOperation
  | launchTask stateOp _ | launchTaskGroup stateOp _ | unreserveAndDestroyVolumes stateOp _ => stateOp
  | reserveAndCreateVolumes id reservation agentInfo => .reserve id reservation agentInfo

/-- The instance's state before this operation has been applied. -/
def oldInstance : InstanceOp → Option Instance
  | launchTask _ oldInstance | launchTaskGroup _ oldInstance
  | unreserveAndDestroyVolumes _ oldInstance => oldInstance
  -- the source: if the op is reverted, there should be no old state
  | reserveAndCreateVolumes .. => none

def instanceId (op : InstanceOp) : InstanceId := op.stateOp.instanceId

/-- The operation on the state is a `Provision`. -/
def isLaunch (op : InstanceOp) : Bool :=
  match op.stateOp with
  | .provision .. => true
  | _ => false

end InstanceOp

/-! ## The helper of the factory -/

namespace InstanceOpFactoryHelper

/-- `provision` of a task. -/
def provisionTask (stateOp : InstanceUpdateOperation) : InstanceOp := .launchTask stateOp none

/-- `provision` of a task group. -/
def provisionTaskGroup (stateOp : InstanceUpdateOperation) : InstanceOp :=
  .launchTaskGroup stateOp none

/-- `launchOnReservation` of a task. -/
def launchTaskOnReservation (newState : InstanceUpdateOperation) (oldState : Instance) :
    Except Thrown InstanceOp :=
  if oldState.hasReservation then .ok (.launchTask newState (some oldState))
  else .error .assertionError

/-- `launchOnReservation` of a task group. -/
def launchTaskGroupOnReservation (newState : InstanceUpdateOperation) (oldState : Instance) :
    InstanceOp :=
  .launchTaskGroup newState (some oldState)

end InstanceOpFactoryHelper

/-! ## The factory -/

/-- What the matching of one offer comes to: whether its resources match, the reserved
instance whose volumes it has, and what the builders of the Mesos tasks give. -/
structure OfferMatching where
  agentInfo : AgentInfo
  /-- `RunSpecOfferMatcher.matchOffer`: whether the offer has what the run spec needs. -/
  matchOffer : RunSpec → Bool
  /-- `PersistentVolumeMatcher.matchVolumes`: one of the reserved instances. -/
  matchVolumes : List Instance → Option Instance
  /-- `ResourceMatcher.matchResources` among the resources reserved for an instance. -/
  matchReserved : Instance → Bool
  /-- `ResourceMatcher.matchResources` among the unreserved resources. -/
  matchReservable : RunSpec → Bool
  /-- The volumes that are going to be created. -/
  localVolumes : RunSpec → List LocalVolumeId
  /-- The network infos of the tasks that are built. -/
  networkInfos : RunSpec → List TaskId → Dict TaskId NetworkInfo
  taskReservationTimeout : FiniteDuration
  now : Timestamp

namespace InstanceOpFactory

open InstanceOpFactoryHelper

/-- The ids of the tasks to launch next: those of the instance's next incarnation. -/
def nextTaskIds (i : Instance) (containers : List (Option String)) : List TaskId :=
  if i.tasksMap.keys ≠ [] then i.tasksMap.keys.map TaskId.nextIncarnationFor
  else containers.map (TaskId.ofContainer i.instanceId)

def containerNames (pod : PodDefinition) : List (Option String) :=
  pod.containers.map fun container => some container.name

def inferPodInstanceOp (m : OfferMatching) (pod : PodDefinition) (scheduledInstance : Instance) :
    Except Thrown (Option InstanceOp) :=
  if m.matchOffer (.pod pod) then do
    let instanceId := scheduledInstance.instanceId
    let taskIds := nextTaskIds scheduledInstance (containerNames pod)
    -- there is a task for each container that got an id
    let taskIDs := (pod.containers.zip taskIds).map Prod.snd
    let tasks ← Tasks.provisioned taskIDs (m.networkInfos (.pod pod) taskIds) pod.version m.now
    let stateOp := .provision instanceId m.agentInfo (.pod pod) tasks m.now
    return some (provisionTaskGroup stateOp)
  else return none

def inferNormalTaskOp (m : OfferMatching) (app : AppDefinition) (scheduledInstance : Instance) :
    Except Thrown (Option InstanceOp) :=
  if m.matchOffer (.app app) then do
    let taskId :=
      match scheduledInstance.tasksMap.keys.head? with
      | some id => id.nextIncarnationFor
      | none => TaskId.ofContainer scheduledInstance.instanceId none
    let tasks ← Tasks.provisioned [taskId] (m.networkInfos (.app app) [taskId]) app.version m.now
    let stateOp :=
      .provision scheduledInstance.instanceId m.agentInfo scheduledInstance.runSpec tasks m.now
    return some (provisionTask stateOp)
  else return none

/-- The task ids of the next incarnation by the names of their containers, the last one of a
name winning. -/
def containerNameToTaskId (taskIds : List TaskId) : Except Thrown (Dict String TaskId) := do
  let entries ← (taskIds.map TaskId.nextIncarnationFor).mapM fun taskId =>
    match taskId with
    | .taskIdWithIncarnation _ (some containerName) _ => Except.ok (containerName, taskId)
    | _ => .error .illegalState
  return Dict.ofBindings entries

/-- The ids of the tasks of a pod that is launched on its reservation, one for each container. -/
def podContainerTaskIds (pod : PodDefinition) (reservedInstance : Instance) :
    Except Thrown (List TaskId) := do
  let taskIds :=
    if reservedInstance.tasksMap.keys ≠ [] then reservedInstance.tasksMap.keys
    else (containerNames pod).map (TaskId.ofContainer reservedInstance.instanceId)
  let containerNameToTaskId ← containerNameToTaskId taskIds
  pod.containers.mapM fun container =>
    match containerNameToTaskId.lookup container.name with
    | some taskId => .ok taskId
    | none => .error .illegalState

def headOrThrow : List TaskId → Except Thrown TaskId
  | taskId :: _ => .ok taskId
  | [] => .error .illegalState

def launchOnReservation (m : OfferMatching) (reservedInstance : Instance) :
    Except Thrown InstanceOp :=
  match reservedInstance.runSpec with
  | .app app => do
    let newTaskId ← headOrThrow (nextTaskIds reservedInstance [none])
    let provisionedTasks ←
      Tasks.provisioned [newTaskId] (m.networkInfos (.app app) [newTaskId]) app.version m.now
    let stateOp :=
      .provision reservedInstance.instanceId m.agentInfo (.app app) provisionedTasks m.now
    launchTaskOnReservation stateOp reservedInstance
  | .pod pod => do
    let taskIds ← podContainerTaskIds pod reservedInstance
    let provisionedTasks ←
      Tasks.provisioned taskIds (m.networkInfos (.pod pod) taskIds) pod.version m.now
    let stateOp :=
      .provision reservedInstance.instanceId m.agentInfo (.pod pod) provisionedTasks m.now
    return launchTaskGroupOnReservation stateOp reservedInstance

def reserveAndCreateVolumes (m : OfferMatching) (scheduledInstance : Instance) : InstanceOp :=
  let timeout : Reservation.Timeout :=
    ⟨m.now, m.now.plus m.taskReservationTimeout, .reservationTimeout⟩
  let reservation : Reservation :=
    { volumeIds := m.localVolumes scheduledInstance.runSpec
      state := .new (some timeout)
      id := .simplifiedId scheduledInstance.instanceId }
  .reserveAndCreateVolumes scheduledInstance.instanceId reservation m.agentInfo

/-- `none` outside: there is no reservation to launch on; inside: the offer does not match. -/
def maybeLaunchOnReservation (m : OfferMatching) (scheduledInstances : List Instance) :
    Except Thrown (Option (Option InstanceOp)) :=
  let reserved := scheduledInstances.filter Instance.hasReservation
  if reserved ≠ [] then
    match m.matchVolumes reserved with
    | none => return none
    | some i =>
      if m.matchReserved i then do
        let op ← launchOnReservation m i
        return some (some op)
      else return some none
  else return none

def maybeReserveAndCreateVolumes (m : OfferMatching) (scheduledInstances : List Instance) :
    Option InstanceOp :=
  match scheduledInstances.find? (!·.hasReservation) with
  | none => none
  | some i => if m.matchReservable i.runSpec then some (reserveAndCreateVolumes m i) else none

def inferForResidents (m : OfferMatching) (scheduledInstances : List Instance) :
    Except Thrown (Option InstanceOp) := do
  match ← maybeLaunchOnReservation m scheduledInstances with
  | some result => return result
  | none => return maybeReserveAndCreateVolumes m scheduledInstances

/-- The result for the first of the scheduled instances. -/
def matchFirst (m : OfferMatching) (head : Instance) (tail : List Instance) :
    Except Thrown (Option InstanceOp) :=
  if head.runSpec.isResident then inferForResidents m (head :: tail)
  else
    match head.runSpec with
    | .app app => inferNormalTaskOp m app head
    | .pod pod => inferPodInstanceOp m pod head

/-- The operation for the first scheduled instances that the offer matches. -/
def matchOfferRequest (m : OfferMatching) : List Instance → Except Thrown (Option InstanceOp)
  | [] => .ok none
  | head :: tail => do
    match ← matchFirst m head tail with
    | some op => return some op
    | none => matchOfferRequest m tail

end InstanceOpFactory

/-! ## What the factory makes -/

/-- An operation on an instance: it is provisioned or reserved, and the old instance of the
operation is the one it changes. -/
structure InstanceOp.IsFor (i : Instance) (op : InstanceOp) : Prop where
  stateOp : (∃ agentInfo runSpec tasks now,
      op.stateOp = .provision i.instanceId agentInfo runSpec tasks now) ∨
    ∃ reservation agentInfo, op.stateOp = .reserve i.instanceId reservation agentInfo
  oldInstance : op.oldInstance = none ∨ op.oldInstance = some i

theorem InstanceOp.IsFor.instanceId {i : Instance} {op : InstanceOp} (h : op.IsFor i) :
    op.instanceId = i.instanceId := by
  obtain ⟨agentInfo, runSpec, tasks, now, hstate⟩ | ⟨reservation, agentInfo, hstate⟩ := h.stateOp
  all_goals
    rw [InstanceOp.instanceId, hstate]
    rfl

/-- The volumes of an offer are matched with one of the instances that wait for them. -/
def OfferMatching.Lawful (m : OfferMatching) : Prop :=
  ∀ waitingInstances i, m.matchVolumes waitingInstances = some i → i ∈ waitingInstances

namespace InstanceOpFactory

open InstanceOpFactoryHelper

variable {m : OfferMatching} {i : Instance} {scheduledInstances : List Instance} {op : InstanceOp}

theorem isFor_of_inferNormalTaskOp {app : AppDefinition}
    (h : inferNormalTaskOp m app i = .ok (some op)) : op.IsFor i := by
  unfold inferNormalTaskOp at h
  split_ifs at h
  · obtain ⟨tasks, _, h⟩ := bind_eq_ok.mp h
    cases h
    exact ⟨.inl ⟨_, _, _, _, rfl⟩, .inl rfl⟩
  · cases h

theorem isFor_of_inferPodInstanceOp {pod : PodDefinition}
    (h : inferPodInstanceOp m pod i = .ok (some op)) : op.IsFor i := by
  unfold inferPodInstanceOp at h
  split_ifs at h
  · obtain ⟨tasks, _, h⟩ := bind_eq_ok.mp h
    cases h
    exact ⟨.inl ⟨_, _, _, _, rfl⟩, .inl rfl⟩
  · cases h

theorem isFor_of_launchOnReservation (h : launchOnReservation m i = .ok op) : op.IsFor i := by
  unfold launchOnReservation at h
  cases hspec : i.runSpec with
  | app app =>
    rw [hspec] at h
    obtain ⟨taskId, _, h⟩ := bind_eq_ok.mp h
    obtain ⟨tasks, _, h⟩ := bind_eq_ok.mp h
    unfold launchTaskOnReservation at h
    split_ifs at h
    cases h
    exact ⟨.inl ⟨_, _, _, _, rfl⟩, .inr rfl⟩
  | pod pod =>
    rw [hspec] at h
    obtain ⟨taskIds, _, h⟩ := bind_eq_ok.mp h
    obtain ⟨tasks, _, h⟩ := bind_eq_ok.mp h
    cases h
    exact ⟨.inl ⟨_, _, _, _, rfl⟩, .inr rfl⟩

theorem isFor_reserveAndCreateVolumes (m : OfferMatching) (i : Instance) :
    (reserveAndCreateVolumes m i).IsFor i :=
  ⟨.inr ⟨_, _, rfl⟩, .inl rfl⟩

theorem isFor_of_inferForResidents (h : inferForResidents m scheduledInstances = .ok (some op)) :
    ∃ i, op.IsFor i ∧ (m.Lawful → i ∈ scheduledInstances) := by
  unfold inferForResidents at h
  obtain ⟨result, hlaunch, h⟩ := bind_eq_ok.mp h
  cases result with
  | some result =>
    cases h
    unfold maybeLaunchOnReservation at hlaunch
    dsimp only at hlaunch
    split_ifs at hlaunch
    · split at hlaunch
      · cases hlaunch
      · rename_i i hi
        split_ifs at hlaunch
        · obtain ⟨op', hop, hlaunch⟩ := bind_eq_ok.mp hlaunch
          cases Except.ok.inj hlaunch
          exact ⟨i, isFor_of_launchOnReservation hop, fun hm => List.mem_of_mem_filter (hm _ i hi)⟩
        · cases hlaunch
    · cases hlaunch
  | none =>
    have hreserve := Except.ok.inj h
    unfold maybeReserveAndCreateVolumes at hreserve
    split at hreserve
    · cases hreserve
    · rename_i i hi
      split_ifs at hreserve
      cases hreserve
      exact ⟨i, isFor_reserveAndCreateVolumes m i, fun _ => List.mem_of_find?_eq_some hi⟩

theorem isFor_of_matchOfferRequest (h : matchOfferRequest m scheduledInstances = .ok (some op)) :
    ∃ i, op.IsFor i ∧ (m.Lawful → i ∈ scheduledInstances) := by
  induction scheduledInstances with
  | nil => cases h
  | cons head tail ih =>
    obtain ⟨result, hfirst, h⟩ := bind_eq_ok.mp h
    cases result with
    | none =>
      obtain ⟨i, hi, hmem⟩ := ih h
      exact ⟨i, hi, fun hm => List.mem_cons_of_mem head (hmem hm)⟩
    | some op' =>
      cases h
      unfold matchFirst at hfirst
      split_ifs at hfirst
      · exact isFor_of_inferForResidents hfirst
      · refine ⟨head, ?_, fun _ => List.mem_cons_self⟩
        cases hspec : head.runSpec with
        | app app =>
          rw [hspec] at hfirst
          exact isFor_of_inferNormalTaskOp hfirst
        | pod pod =>
          rw [hspec] at hfirst
          exact isFor_of_inferPodInstanceOp hfirst

end InstanceOpFactory

end Marathon
