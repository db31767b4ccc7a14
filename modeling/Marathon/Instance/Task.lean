import Marathon.Instance.Condition
import Marathon.State.PathId

/-!
# Tasks

The ids of instances and tasks, a task with its status, and what a status update of Mesos
does to it.
-/

namespace Marathon

structure UUID where
  bits : BitVec 128
deriving DecidableEq

namespace UUID

/-- The last `count` hexadecimal digits of a number. -/
def hexDigits : ℕ → ℕ → List Char
  | 0, _ => []
  | count + 1, n => hexDigits count (n / 16) ++ [Nat.digitChar (n % 16)]

/-- `UUID.toString`. -/
def string (uuid : UUID) : String :=
  let digits := hexDigits 32 uuid.bits.toNat
  "-".intercalate <| [(0, 8), (8, 4), (12, 4), (16, 4), (20, 12)].map fun (start, length) =>
    String.ofList ((digits.drop start).take length)

end UUID

/-! ## Ids -/

/-- `prefixInstance` and `prefixMarathon`. -/
inductive InstanceId.Kind
  | «instance»
  | marathon
deriving DecidableEq

def InstanceId.Kind.value : InstanceId.Kind → String
  | .instance => "instance-"
  | .marathon => "marathon-"

/-- `Instance.Id`. -/
structure InstanceId where
  runSpecId : AbsolutePathId
  kind : InstanceId.Kind
  uuid : UUID
deriving DecidableEq

namespace InstanceId

def idString (id : InstanceId) : String := id.runSpecId.safePath ++ "." ++ id.kind.value ++ id.uuid.string

/-- `Instance.Id.toString`. -/
def string (id : InstanceId) : String := "instance [" ++ id.idString ++ "]"

end InstanceId

/-- `Task.Id`. -/
inductive TaskId
  | legacyId (runSpecId : AbsolutePathId) (separator : String) (uuid : UUID)
  | legacyResidentId (runSpecId : AbsolutePathId) (separator : String) (uuid : UUID) (attempt : ℤ)
  | ephemeralTaskId (instanceId : InstanceId) (containerName : Option String)
  | taskIdWithIncarnation (instanceId : InstanceId) (containerName : Option String)
      (incarnation : ℤ)
deriving DecidableEq

namespace TaskId

def instanceId : TaskId → InstanceId
  | legacyId runSpecId _ uuid => ⟨runSpecId, .marathon, uuid⟩
  | legacyResidentId runSpecId _ uuid _ => ⟨runSpecId, .marathon, uuid⟩
  | ephemeralTaskId instanceId _ => instanceId
  | taskIdWithIncarnation instanceId _ _ => instanceId

def containerName : TaskId → Option String
  | legacyId .. | legacyResidentId .. => none
  | ephemeralTaskId _ containerName | taskIdWithIncarnation _ containerName _ => containerName

/-- The name that stands for the container of an app. -/
def anonymousContainer : String := "_app"

def idString : TaskId → String
  | legacyId runSpecId separator uuid => runSpecId.safePath ++ separator ++ uuid.string
  | legacyResidentId runSpecId separator uuid attempt =>
    runSpecId.safePath ++ separator ++ uuid.string ++ "." ++ toString attempt
  | ephemeralTaskId instanceId containerName =>
    instanceId.idString ++ "." ++ containerName.getD anonymousContainer
  | taskIdWithIncarnation instanceId containerName incarnation =>
    instanceId.idString ++ "." ++ containerName.getD anonymousContainer ++ "." ++
      toString incarnation

/-- `Task.Id.toString`. -/
def string (taskId : TaskId) : String := "task [" ++ taskId.idString ++ "]"

/-- `Task.Id.apply`: the first incarnation. -/
def ofContainer (instanceId : InstanceId) (containerName : Option String) : TaskId :=
  taskIdWithIncarnation instanceId containerName 1

def nextIncarnationFor : TaskId → TaskId
  | ephemeralTaskId instanceId containerName => taskIdWithIncarnation instanceId containerName 1
  | taskIdWithIncarnation instanceId containerName attempt =>
    taskIdWithIncarnation instanceId containerName (attempt + 1)
  | legacyResidentId runSpecId separator uuid attempt =>
    legacyResidentId runSpecId separator uuid (attempt + 1)
  | legacyId runSpecId separator uuid => legacyResidentId runSpecId separator uuid 1

/-- The number of the incarnation; an id that has none is older than every one that has. -/
def incarnation : TaskId → ℤ
  | legacyId .. | ephemeralTaskId .. => 0
  | legacyResidentId _ _ _ attempt => attempt
  | taskIdWithIncarnation _ _ incarnation => incarnation

/-- The id is one of a strictly newer incarnation of the same task. -/
structure Supersedes (next previous : TaskId) : Prop where
  instanceId : next.instanceId = previous.instanceId
  containerName : next.containerName = previous.containerName
  incarnation : previous.incarnation < next.incarnation

theorem nextIncarnationFor_supersedes (taskId : TaskId) :
    taskId.nextIncarnationFor.Supersedes taskId := by
  cases taskId with
  | legacyId => exact ⟨rfl, rfl, Int.zero_lt_one⟩
  | legacyResidentId runSpecId separator uuid attempt => exact ⟨rfl, rfl, Int.lt_succ attempt⟩
  | ephemeralTaskId => exact ⟨rfl, rfl, Int.zero_lt_one⟩
  | taskIdWithIncarnation id containerName incarnation => exact ⟨rfl, rfl, Int.lt_succ incarnation⟩

end TaskId

/-! ## Statuses -/

/-- A status of Mesos. `taskId` is what `Task.Id.parse` makes of the id in it, `none` when the
id is not a valid one; `timestamp` is in whole seconds, 0 when there is none; `unread` are the
other fields, which only a comparison looks at. -/
structure Mesos.TaskStatus where
  taskId : Option TaskId
  state : TaskState
  message : Option String
  reason : Option Reason
  slaveId : String
  healthy : Option Bool
  checkStatus : Option CheckStatusInfo
  unreachableTime : Option ℤ
  timestamp : ℤ
  containerStatus : Option (List (List IPAddress))
  unread : List UInt8
deriving DecidableEq

namespace Mesos.TaskStatus

/-- The default of an enumeration is its first value. -/
def getReason (status : TaskStatus) : Reason :=
  status.reason.getD (.other "REASON_COMMAND_EXECUTOR_FAILED")

def getMessage (status : TaskStatus) : String := status.message.getD ""

def getHealthy (status : TaskStatus) : Bool := status.healthy.getD false

/-- `TaskCondition.apply`. -/
def condition (status : TaskStatus) : Condition :=
  TaskCondition.ofState status.state status.getReason status.getMessage

/-- `NetworkInfo.resolveIpAddresses`. -/
def resolveIpAddresses (status : TaskStatus) : List IPAddress :=
  match status.containerStatus with
  | some networkInfos => networkInfos.flatten
  | none => []

/-- Since when the task is unreachable: when the status says nothing, since the status. -/
def unreachableSince (status : TaskStatus) : Timestamp :=
  match status.unreachableTime with
  | some nanoseconds => .ofMillis (nanoseconds.tdiv 1000000)
  | none => .ofMillis (status.timestamp * 1000)

end Mesos.TaskStatus

structure NetworkInfo where
  hostName : String
  hostPorts : List ℤ
  ipAddresses : List Mesos.IPAddress
deriving DecidableEq

def NetworkInfo.update (info : NetworkInfo) (mesosStatus : Mesos.TaskStatus) : NetworkInfo :=
  { info with ipAddresses := mesosStatus.resolveIpAddresses }

structure Task.Status where
  stagedAt : Timestamp
  startedAt : Option Timestamp
  mesosStatus : Option Mesos.TaskStatus
  condition : Condition
  networkInfo : NetworkInfo
deriving DecidableEq

structure Task where
  taskId : TaskId
  runSpecVersion : Timestamp
  status : Task.Status
deriving DecidableEq

/-- `Failure` is not among the effects: no update of a task fails. -/
inductive TaskUpdateEffect
  | noop
  | update (newState : Task)

namespace Task

def isTerminal (task : Task) : Bool := task.status.condition.isTerminal

def isActive (task : Task) : Bool := task.status.condition.isActive

def isRunning (task : Task) : Bool := task.status.condition = .running

/-- The new status, if the health or the result of a check was added or changed, or the state
changed. -/
def updatedHealthOrState (maybeCurrent : Option Mesos.TaskStatus) (update : Mesos.TaskStatus) :
    Option Mesos.TaskStatus :=
  match maybeCurrent with
  | some current =>
    let healthy := update.healthy.isSome &&
      (current.healthy.isNone || current.getHealthy != update.getHealthy)
    let checkResultChanged := update.checkStatus.isSome &&
      (current.checkStatus.isNone || current.checkStatus != update.checkStatus)
    let changed := healthy || checkResultChanged || current.state != update.state
    if changed then some update else none
  | none => some update

/-- `Task.update`; of the instance it is asked whether it has a reservation. -/
def update (task : Task) (hasReservation : Bool) (newStatus : Condition)
    (newMesosStatus : Mesos.TaskStatus) (now : Timestamp) : TaskUpdateEffect :=
  if task.isTerminal then .noop
  else if newStatus = .running && task.status.startedAt.isNone then
    .update
      { task with
        status :=
          { task.status with
            mesosStatus := some newMesosStatus
            condition := .running
            startedAt := some now
            networkInfo := task.status.networkInfo.update newMesosStatus } }
  else if newStatus.isTerminal then
    .update
      { task with
        status := { task.status with mesosStatus := some newMesosStatus, condition := newStatus } }
  else if task.status.condition = .scheduled && hasReservation then
    if newStatus.isActive then
      .update
        { task with
          status := { task.status with startedAt := some now, mesosStatus := some newMesosStatus } }
    else .noop
  else
    match updatedHealthOrState task.status.mesosStatus newMesosStatus with
    | some newTaskStatus =>
      .update
        { task with
          status :=
            { task.status with
              mesosStatus := some newTaskStatus
              condition := newStatus
              networkInfo := task.status.networkInfo.update newMesosStatus } }
    | none => .noop

/-- Whether Mesos has reported the task unreachable for longer than the timeout. -/
def isUnreachableExpired (task : Task) (now : Timestamp) (timeout : FiniteDuration) : Bool :=
  (task.status.condition = .unreachable || task.status.condition = .unreachableInactive) &&
    task.status.mesosStatus.any fun status => status.unreachableSince.expired now timeout

/-! ## What an update can do -/

section Update

variable {task task' : Task} {hasReservation : Bool} {newStatus : Condition}
  {newMesosStatus : Mesos.TaskStatus} {now : Timestamp}

/-- An update of a task is one of a task that was not terminal; the task is the same task, in
the new condition or, when it was scheduled, in that condition still. -/
theorem update_eq_update
    (h : task.update hasReservation newStatus newMesosStatus now = .update task') :
    ¬task.isTerminal ∧ task'.taskId = task.taskId ∧
      (task'.status.condition = newStatus ∨
        task.status.condition = .scheduled ∧ task'.status.condition = .scheduled) := by
  unfold update at h
  split_ifs at h with hterminal hrunning hnew hscheduled hactive
  · cases h
    rw [Bool.and_eq_true, decide_eq_true_eq] at hrunning
    exact ⟨hterminal, rfl, .inl hrunning.1.symm⟩
  · cases h
    exact ⟨hterminal, rfl, .inl rfl⟩
  · cases h
    rw [Bool.and_eq_true, decide_eq_true_eq] at hscheduled
    exact ⟨hterminal, rfl, .inr ⟨hscheduled.1, hscheduled.1⟩⟩
  · split at h
    · cases h
      exact ⟨hterminal, rfl, .inl rfl⟩
    · cases h

end Update

end Task

end Marathon
