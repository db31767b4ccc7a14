import Marathon.Instance.Instance
import Marathon.Lib.Machine

/-!
# Updates of instances

`InstanceUpdater` and `InstanceUpdateOpResolver`: the effect of every operation on the
instance that the tracker holds, if there is one.
-/

namespace Marathon

open Lib

/-! ## Operations and effects -/

inductive InstanceUpdateOperation
  | schedule (i : Instance)
  | provision (instanceId : InstanceId) (agentInfo : AgentInfo) (runSpec : RunSpec)
      (tasks : Dict TaskId Task) (now : Timestamp)
  | rescheduleReserved (instanceId : InstanceId) (runSpec : RunSpec)
  | mesosUpdate (i : Instance) (condition : Condition) (mesosStatus : Mesos.TaskStatus)
      (now : Timestamp)
  | reservationTimeout (instanceId : InstanceId)
  | changeGoal (instanceId : InstanceId) (goal : Goal)
  | reserve (instanceId : InstanceId) (reservation : Reservation) (agentInfo : AgentInfo)
  | unreserve (instanceId : InstanceId)
  | forceExpunge (instanceId : InstanceId)
  | revert (i : Instance)

namespace InstanceUpdateOperation

def instanceId : InstanceUpdateOperation → InstanceId
  | schedule i | revert i | mesosUpdate i .. => i.instanceId
  | provision id .. | rescheduleReserved id .. | reservationTimeout id | changeGoal id _
  | reserve id .. | unreserve id | forceExpunge id => id

/-- `MesosUpdate.apply`: the condition is the one of the status. -/
def mesosUpdateOf (i : Instance) (mesosStatus : Mesos.TaskStatus) (now : Timestamp) :
    InstanceUpdateOperation :=
  mesosUpdate i mesosStatus.condition mesosStatus now

end InstanceUpdateOperation

/-- The events of an update; versions and times are kept as timestamps. -/
inductive MarathonEvent
  | instanceChanged (id : InstanceId) (runSpecVersion : Timestamp) (runSpecId : AbsolutePathId)
      (condition : Condition) (i : Instance)
  | mesosStatusUpdateEvent (slaveId : String) (taskId : TaskId) (taskStatus : Mesos.TaskState)
      (message : String) (appId : AbsolutePathId) (host : String)
      (ipAddresses : List Mesos.IPAddress) (ports : List ℤ) (version timestamp : Timestamp)

/-- Why an operation could not be applied. -/
inductive UpdateFailure
  | doesNotExist (id : InstanceId)
  | alreadyExists (id : InstanceId) (runSpecId : AbsolutePathId)
  | taskNotFound (taskId : TaskId) (id : InstanceId) (known : List TaskId)
  | notReserved
deriving DecidableEq

def UpdateFailure.message : UpdateFailure → String
  | doesNotExist id => id.string ++ " of app [" ++ id.runSpecId.string ++ "] does not exist"
  | alreadyExists id runSpecId =>
    id.string ++ " of app [" ++ runSpecId.string ++ "] already exists"
  | taskNotFound taskId id known =>
    taskId.string ++ " not found in " ++ id.string ++ ": Set(" ++
      ", ".intercalate (known.map TaskId.string) ++ ")"
  | notReserved => "ReservationTimeout can only be applied to a reserved instance"

inductive InstanceUpdateEffect
  | update (i : Instance) (oldState : Option Instance) (events : List MarathonEvent)
  | expunge (i : Instance) (events : List MarathonEvent)
  | noop (instanceId : InstanceId)
  | failure (cause : UpdateFailure)

/-! ## Events -/

namespace InstanceChangedEventsGenerator

def updatedCondition (i : Instance) : MarathonEvent :=
  .instanceChanged i.instanceId i.runSpecVersion i.runSpecId i.state.condition i

def taskEvent (i : Instance) (task : Task) (now : Timestamp) : MarathonEvent :=
  let maybeTaskStatus := task.status.mesosStatus
  .mesosStatusUpdateEvent ((maybeTaskStatus.map (·.slaveId)).getD "") task.taskId
    ((maybeTaskStatus.map (·.state)).getD .staging)
    ((maybeTaskStatus.map (·.getMessage)).getD "") i.runSpecId (i.hostname.getD "unknown")
    task.status.networkInfo.ipAddresses task.status.networkInfo.hostPorts i.runSpecVersion now

def events (i : Instance) (task : Option Task) (now : Timestamp)
    (previousState : Option InstanceState) : List MarathonEvent :=
  let stateChanged := previousState.all fun previous =>
    previous.condition != i.state.condition || previous.goal != i.state.goal
  let instanceEvent := if stateChanged then [updatedCondition i] else []
  match task with
  | some task => taskEvent i task now :: instanceEvent
  | none => instanceEvent

end InstanceChangedEventsGenerator

/-! ## The updater -/

namespace InstanceUpdater

open InstanceChangedEventsGenerator

/-- The reservation is suspended when a task becomes terminal, so that it is not destroyed. -/
def updatedReservation (i : Instance) (updatedTask : Task) : Option Reservation :=
  if updatedTask.isTerminal && i.hasReservation && !i.reservation.any (·.state = .suspended) then
    i.reservation.map fun r => { r with state := .suspended }
  else i.reservation

def applyTaskUpdate (i : Instance) (updatedTask : Task) (now : Timestamp) : Instance :=
  let updatedTasks := i.tasksMap.updated updatedTask.taskId updatedTask
  { i with
    tasksMap := updatedTasks
    state := .transitionTo (some i.state) updatedTasks.values now i.unreachableStrategy i.state.goal
    reservation := updatedReservation i updatedTask }

def isTerminalDecomissionedAndEphemeral (i : Instance) : Bool :=
  i.tasks.all Task.isTerminal && i.state.goal = .decommissioned && i.reservation.isNone

def shouldAbandonReservation (i : Instance) : Bool :=
  let allAreTerminal := i.tasks.all Task.isTerminal
  let anyAreGoneByOperator :=
    i.tasks.any fun task => task.status.mesosStatus.any (·.state = .goneByOperator)
  i.reservation.isSome && anyAreGoneByOperator && allAreTerminal

def readyToExpungeUnreachable (i : Instance) (now : Timestamp) : Bool :=
  match i.unreachableStrategy with
  | .unreachableEnabled _ expungeAfter => i.tasks.any (·.isUnreachableExpired now expungeAfter)
  | .unreachableDisabled => false

def instanceUpdateEffectForTask (i : Instance) (updatedTask : Task) (now : Timestamp) :
    InstanceUpdateEffect :=
  let updated := applyTaskUpdate i updatedTask now
  if updated.state = i.state && updated.tasksMap.entries = i.tasksMap.entries then
    .noop i.instanceId
  else
    let events := events updated (some updatedTask) now (some i.state)
    if readyToExpungeUnreachable updated now then .expunge updated events
    else if isTerminalDecomissionedAndEphemeral updated then .expunge updated events
    else if shouldAbandonReservation updated then
      .update
        { updated with
          agentInfo := none
          reservation := none
          state := { updated.state with condition := .scheduled } }
        (some i) events
    else .update updated (some i) events

def mesosUpdate (i : Instance) (condition : Condition) (mesosStatus : Mesos.TaskStatus)
    (now : Timestamp) : Except Thrown InstanceUpdateEffect :=
  match mesosStatus.taskId with
  | none => .error .matchError
  | some taskId =>
    match i.tasksMap.lookup taskId with
    | none => .ok (.failure (.taskNotFound taskId i.instanceId i.tasksMap.keys))
    | some task =>
      match task.update i.hasReservation condition mesosStatus now with
      | .update updatedTask => .ok (instanceUpdateEffectForTask i updatedTask now)
      | .noop =>
        -- it might still become inactive
        if condition = .unreachable && i.state.condition != .unreachableInactive then
          match instanceUpdateEffectForTask i task now with
          | .noop id => .ok (.noop id)
          | .update updated oldState events => .ok (.update updated oldState events)
          -- the source matches these two only
          | _ => .error .matchError
        else .ok (.noop i.instanceId)

/-- The instance as it is called terminal in the events of its removal. -/
def killed (i : Instance) : Instance := { i with state := { i.state with condition := .killed } }

def reserve (i : Instance) (reservation : Reservation) (agentInfo : AgentInfo) (now : Timestamp) :
    InstanceUpdateEffect :=
  let updatedInstance := i.reserved reservation agentInfo
  .update updatedInstance none (events updatedInstance none now none)

def unreserve (i : Instance) (now : Timestamp) : Except Thrown InstanceUpdateEffect :=
  if i.state.condition.isTerminal && i.state.goal = .decommissioned then
    .ok (.expunge i (events (killed i) none now (some i.state)))
  else .error .illegalArgument

def reservationTimeout (i : Instance) (now : Timestamp) : InstanceUpdateEffect :=
  if i.hasReservation then .expunge i (events (killed i) none now (some i.state))
  else .failure .notReserved

def forceExpunge (i : Instance) (now : Timestamp) : InstanceUpdateEffect :=
  .expunge (killed i) (events (killed i) none now (some i.state))

def revert (i : Instance) : InstanceUpdateEffect := .update i none []

def changeGoal (i : Instance) (goal : Goal) (now : Timestamp) : InstanceUpdateEffect :=
  let updatedInstance := { i with state := { i.state with goal := goal } }
  let events := events updatedInstance none now (some i.state)
  if isTerminalDecomissionedAndEphemeral updatedInstance then .expunge updatedInstance events
  else .update updatedInstance (some i) events

/-! ## What the status of a task does to the instance -/

section Effect

variable {i : Instance} {condition : Condition} {mesosStatus : Mesos.TaskStatus}
  {updatedTask : Task} {now : Timestamp} {effect : InstanceUpdateEffect}

/-- What a status makes of a task that the instance has. One that it does not change counts
too, when the instance might still become inactive. -/
inductive Reports (i : Instance) (condition : Condition) (mesosStatus : Mesos.TaskStatus)
    (now : Timestamp) (updatedTask : Task) : Prop
  | updated {taskId : TaskId} {task : Task} (hid : mesosStatus.taskId = some taskId)
      (htask : i.tasksMap.lookup taskId = some task)
      (hupdate : task.update i.hasReservation condition mesosStatus now = .update updatedTask)
  | unchanged {taskId : TaskId} (hid : mesosStatus.taskId = some taskId)
      (htask : i.tasksMap.lookup taskId = some updatedTask)
      (hnoop : updatedTask.update i.hasReservation condition mesosStatus now = .noop)
      (hcondition : condition = .unreachable)
      (hactive : i.state.condition ≠ .unreachableInactive)

theorem mesosUpdate_eq_ok (h : mesosUpdate i condition mesosStatus now = .ok effect) :
    (∃ cause, effect = .failure cause) ∨ effect = .noop i.instanceId ∨
      ∃ updatedTask, Reports i condition mesosStatus now updatedTask ∧
        effect = instanceUpdateEffectForTask i updatedTask now := by
  unfold mesosUpdate at h
  cases hid : mesosStatus.taskId with
  | none =>
    rw [hid] at h
    cases h
  | some taskId =>
    simp only [hid] at h
    cases htask : i.tasksMap.lookup taskId with
    | none =>
      rw [htask] at h
      exact .inl ⟨_, (Except.ok.inj h).symm⟩
    | some task =>
      simp only [htask] at h
      cases hupdate : task.update i.hasReservation condition mesosStatus now with
      | update updatedTask =>
        simp only [hupdate] at h
        exact .inr (.inr ⟨updatedTask, .updated hid htask hupdate, (Except.ok.inj h).symm⟩)
      | noop =>
        simp only [hupdate] at h
        split_ifs at h with hinactive
        · rw [Bool.and_eq_true, decide_eq_true_eq, bne_iff_ne] at hinactive
          refine .inr (.inr ⟨task, .unchanged hid htask hupdate hinactive.1 hinactive.2, ?_⟩)
          cases heffect : instanceUpdateEffectForTask i task now with
          | noop id =>
            rw [heffect] at h
            exact (Except.ok.inj h).symm
          | update updated oldState events =>
            rw [heffect] at h
            exact (Except.ok.inj h).symm
          | expunge =>
            rw [heffect] at h
            cases h
          | failure =>
            rw [heffect] at h
            cases h
        · exact .inr (.inl (Except.ok.inj h).symm)

theorem mesosUpdate_of_reports (h : Reports i condition mesosStatus now updatedTask)
    {j : Instance} {oldState : Option Instance} {events : List MarathonEvent}
    (heffect : instanceUpdateEffectForTask i updatedTask now = .update j oldState events) :
    mesosUpdate i condition mesosStatus now = .ok (.update j oldState events) := by
  unfold mesosUpdate
  cases h with
  | updated hid htask hupdate => simp only [hid, htask, hupdate, heffect]
  | unchanged hid htask hnoop hcondition hactive =>
    have hinactive : (condition = .unreachable && i.state.condition != .unreachableInactive) = true := by
      rw [Bool.and_eq_true, decide_eq_true_eq, bne_iff_ne]
      exact ⟨hcondition, hactive⟩
    simp only [hid, htask, hnoop, hinactive, if_true, heffect]

/-- The task changes the state or the tasks of the instance. -/
def Changes (i : Instance) (updatedTask : Task) (now : Timestamp) : Prop :=
  (applyTaskUpdate i updatedTask now).state ≠ i.state ∨
    (applyTaskUpdate i updatedTask now).tasksMap.entries ≠ i.tasksMap.entries

theorem changes_iff :
    Changes i updatedTask now ↔
      ¬((applyTaskUpdate i updatedTask now).state = i.state &&
        (applyTaskUpdate i updatedTask now).tasksMap.entries = i.tasksMap.entries) = true := by
  rw [Bool.and_eq_true, decide_eq_true_eq, decide_eq_true_eq, not_and_or]
  rfl

theorem goal_applyTaskUpdate (i : Instance) (updatedTask : Task) (now : Timestamp) :
    (applyTaskUpdate i updatedTask now).state.goal = i.state.goal :=
  InstanceState.goal_transitionTo _ _ _

theorem hasReservation_applyTaskUpdate (i : Instance) (updatedTask : Task) (now : Timestamp) :
    (applyTaskUpdate i updatedTask now).hasReservation = i.hasReservation := by
  change (updatedReservation i updatedTask).isSome = i.reservation.isSome
  unfold updatedReservation
  split_ifs
  · exact Option.isSome_map
  · rfl

/-- What is stored after the status of a task: the goal stays, and the reservation is either
kept or abandoned. -/
theorem instanceUpdateEffectForTask_eq_update {j : Instance} {oldState : Option Instance}
    {events : List MarathonEvent}
    (h : instanceUpdateEffectForTask i updatedTask now = .update j oldState events) :
    Changes i updatedTask now ∧
      ¬isTerminalDecomissionedAndEphemeral (applyTaskUpdate i updatedTask now) ∧
      j.state.goal = i.state.goal ∧ j.tasks = (applyTaskUpdate i updatedTask now).tasks ∧
      (shouldAbandonReservation (applyTaskUpdate i updatedTask now) ∨
        j = applyTaskUpdate i updatedTask now) := by
  have hgoal := goal_applyTaskUpdate i updatedTask now
  unfold instanceUpdateEffectForTask at h
  dsimp only at h
  split_ifs at h with hsame hunreachable hexpunge habandon
  · cases h
    exact ⟨changes_iff.mpr hsame, hexpunge, hgoal, rfl, .inl habandon⟩
  · cases h
    exact ⟨changes_iff.mpr hsame, hexpunge, hgoal, rfl, .inr rfl⟩

end Effect

end InstanceUpdater

/-! ## The resolver -/

namespace InstanceUpdateOpResolver

open InstanceChangedEventsGenerator

def updateExistingInstance (maybeInstance : Option Instance) (id : InstanceId)
    (applyOperation : Instance → Except Thrown InstanceUpdateEffect) :
    Except Thrown InstanceUpdateEffect :=
  match maybeInstance with
  | some existingInstance => applyOperation existingInstance
  | none => .ok (.failure (.doesNotExist id))

theorem updateExistingInstance_eq_ok {maybeInstance : Option Instance} {id : InstanceId}
    {applyOperation : Instance → Except Thrown InstanceUpdateEffect} {effect : InstanceUpdateEffect}
    (h : updateExistingInstance maybeInstance id applyOperation = .ok effect) :
    (maybeInstance = none ∧ effect = .failure (.doesNotExist id)) ∨
      ∃ i, maybeInstance = some i ∧ applyOperation i = .ok effect := by
  cases maybeInstance with
  | none => exact .inl ⟨rfl, (Except.ok.inj h).symm⟩
  | some i => exact .inr ⟨i, rfl, h⟩

def createInstance (maybeInstance : Option Instance) (applyOperation : InstanceUpdateEffect) :
    InstanceUpdateEffect :=
  match maybeInstance with
  | some i => .failure (.alreadyExists i.instanceId i.runSpecId)
  | none => applyOperation

/-- The effect of an operation at the time `clock`. -/
def resolve (clock : Timestamp) (maybeInstance : Option Instance) (op : InstanceUpdateOperation) :
    Except Thrown InstanceUpdateEffect :=
  match op with
  | .schedule i => .ok (createInstance maybeInstance (.update i none [updatedCondition i]))
  | .provision id agentInfo runSpec tasks now =>
    updateExistingInstance maybeInstance id fun oldInstance => do
      let updatedInstance ← oldInstance.provisioned agentInfo runSpec tasks now
      pure (.update updatedInstance (some oldInstance) [updatedCondition updatedInstance])
  | .rescheduleReserved id runSpec =>
    updateExistingInstance maybeInstance id fun i =>
      let updatedInstance :=
        { i with state := ⟨.scheduled, clock, none, none, .running⟩, runSpec := runSpec }
      .ok (.update updatedInstance (some i) [updatedCondition updatedInstance])
  | .mesosUpdate i condition mesosStatus now =>
    updateExistingInstance maybeInstance i.instanceId fun i =>
      InstanceUpdater.mesosUpdate i condition mesosStatus now
  | .reservationTimeout id =>
    updateExistingInstance maybeInstance id fun i => .ok (InstanceUpdater.reservationTimeout i clock)
  | .changeGoal id goal =>
    updateExistingInstance maybeInstance id fun i => .ok (InstanceUpdater.changeGoal i goal clock)
  | .reserve id reservation agentInfo =>
    updateExistingInstance maybeInstance id fun i =>
      .ok (InstanceUpdater.reserve i reservation agentInfo clock)
  | .unreserve id =>
    updateExistingInstance maybeInstance id fun i => InstanceUpdater.unreserve i clock
  | .forceExpunge id =>
    match maybeInstance with
    | some existingInstance => .ok (InstanceUpdater.forceExpunge existingInstance clock)
    | none => .ok (.noop id)
  | .revert i => .ok (InstanceUpdater.revert i)

end InstanceUpdateOpResolver

/-! ## The instance under a sequence of operations -/

/-- The tracked instance after an effect. -/
def InstanceUpdateEffect.applyTo (maybeInstance : Option Instance) :
    InstanceUpdateEffect → Option Instance
  | update i _ _ => some i
  | expunge .. => none
  | noop _ | failure _ => maybeInstance

/-- The tracked instance after an operation; one that throws changes nothing. -/
def InstanceUpdateOpResolver.step (maybeInstance : Option Instance)
    (event : Timestamp × InstanceUpdateOperation) : Option Instance :=
  match resolve event.1 maybeInstance event.2 with
  | .ok effect => effect.applyTo maybeInstance
  | .error _ => maybeInstance

end Marathon
