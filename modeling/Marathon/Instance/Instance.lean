import Marathon.Instance.Task
import Marathon.Lib.Collections
import Marathon.Lib.Dict
import Marathon.State.AppDefinition

/-!
# Instances

An instance of a run spec: its tasks, its reservation, and the state that is computed from
the tasks.
-/

namespace Marathon

open Lib

/-! ## Agents and reservations -/

inductive Mesos.AttributeValue
  | text (value : String)
  | scalar (value : ℚ)
  | ranges (ranges : List (ℕ × ℕ))
  | set (items : List String)
deriving DecidableEq

structure Mesos.Attribute where
  name : String
  value : AttributeValue
deriving DecidableEq

structure AgentInfo where
  host : String
  agentId : Option String
  region : Option String
  zone : Option String
  attributes : List Mesos.Attribute
deriving DecidableEq

structure LocalVolumeId where
  runSpecId : AbsolutePathId
  name : String
  uuid : String
deriving DecidableEq

namespace Reservation

/-- `Reservation.Id`. -/
inductive Id
  | legacyId (runSpecId : AbsolutePathId) (separator : String) (uuid : UUID)
  | simplifiedId (instanceId : InstanceId)
deriving DecidableEq

inductive Timeout.Reason
  | relaunchEscalationTimeout
  | reservationTimeout
deriving DecidableEq

structure Timeout where
  initiated : Timestamp
  deadline : Timestamp
  reason : Timeout.Reason
deriving DecidableEq

inductive State
  | new (timeout : Option Timeout)
  | launched
  | suspended
deriving DecidableEq

end Reservation

structure Reservation where
  volumeIds : List LocalVolumeId
  state : Reservation.State
  id : Reservation.Id
deriving DecidableEq

/-! ## The state of an instance -/

structure InstanceState where
  condition : Condition
  since : Timestamp
  activeSince : Option Timestamp
  healthy : Option Bool
  goal : Goal
deriving DecidableEq

namespace InstanceState

/-- The conditions from the most to the least important one. -/
def hierarchy : List Condition :=
  [.error, .failed, .gone, .dropped, .unreachable, .killing, .starting, .staging, .unknown,
    .provisioned, .running, .finished, .killed]

/-- The position in the hierarchy, and -1 for a condition that is not in it. -/
def conditionHierarchy (condition : Condition) : ℤ :=
  if condition ∈ hierarchy then hierarchy.idxOf condition else -1

/-- Whether some task has been unreachable for longer than `inactiveAfter`. -/
def shouldBecomeInactive (tasks : List Task) (now : Timestamp) : UnreachableStrategy → Bool
  | .unreachableDisabled => false
  | .unreachableEnabled inactiveAfter _ => tasks.any (·.isUnreachableExpired now inactiveAfter)

/-- The condition of an instance with the tasks: the most important one of theirs. -/
def conditionFromTasks (tasks : List Task) (now : Timestamp) (strategy : UnreachableStrategy) :
    Condition :=
  match (tasks.map (·.status.condition)).minOn? conditionHierarchy with
  | none => .unknown
  | some .unreachable =>
    if shouldBecomeInactive tasks now strategy then .unreachableInactive else .unreachable
  | some condition => condition

/-- `activeSince`: when the first of the tasks has started. -/
def firstStartedAt (tasks : List Task) : Option Timestamp := (tasks.filterMap (·.status.startedAt)).min?

def isRunningUnhealthy (task : Task) : Bool :=
  task.isRunning && task.status.mesosStatus.any fun m => m.healthy.isSome && !m.getHealthy

def isRunningHealthy (task : Task) : Bool :=
  task.isRunning && task.status.mesosStatus.any fun m => m.healthy.isSome && m.getHealthy

def isPending (task : Task) : Bool :=
  task.status.condition != .running && task.status.condition != .finished

/-- The health of an instance; `foundHealthy` is what the tasks before have shown. -/
def computeHealth (foundHealthy : Option Bool) : List Task → Option Bool
  | [] => foundHealthy
  | head :: tail =>
    if isRunningUnhealthy head then some false
    else if isPending head then none
    else if isRunningHealthy head then computeHealth (some true) tail
    else computeHealth foundHealthy tail

/-- The state with new tasks; the old one stays when neither condition nor health change. -/
def transitionTo (maybeOldInstanceState : Option InstanceState) (tasks : List Task)
    (now : Timestamp) (strategy : UnreachableStrategy) (goal : Goal) : InstanceState :=
  let condition := conditionFromTasks tasks now strategy
  let healthy := computeHealth none tasks
  let new : InstanceState := ⟨condition, now, firstStartedAt tasks, healthy, goal⟩
  match maybeOldInstanceState with
  | some state => if state.condition = condition && state.healthy = healthy then state else new
  | none => new

theorem condition_transitionTo (old : Option InstanceState) (tasks : List Task) (now : Timestamp)
    (strategy : UnreachableStrategy) (goal : Goal) :
    (transitionTo old tasks now strategy goal).condition = conditionFromTasks tasks now strategy := by
  unfold transitionTo
  cases old with
  | none => rfl
  | some state =>
    dsimp only
    split_ifs with h
    · rw [Bool.and_eq_true, decide_eq_true_eq] at h
      exact h.1
    · rfl

theorem goal_transitionTo {state : InstanceState} (tasks : List Task) (now : Timestamp)
    (strategy : UnreachableStrategy) :
    (transitionTo (some state) tasks now strategy state.goal).goal = state.goal := by
  unfold transitionTo
  dsimp only
  split_ifs <;> rfl

/-- The condition of an instance stands at least as high in the hierarchy as that of each of
its tasks, and is the condition of one of them as long as it is in the hierarchy. -/
theorem conditionFromTasks_spec {tasks : List Task} {task : Task} (h : task ∈ tasks)
    (now : Timestamp) (strategy : UnreachableStrategy) :
    conditionHierarchy (conditionFromTasks tasks now strategy) ≤
        conditionHierarchy task.status.condition ∧
      (conditionFromTasks tasks now strategy = .unreachableInactive ∨
        ∃ t ∈ tasks, t.status.condition = conditionFromTasks tasks now strategy) := by
  have hmem : task.status.condition ∈ tasks.map (·.status.condition) := List.mem_map_of_mem h
  unfold conditionFromTasks
  split
  · rename_i hmin
    have hsome := List.isSome_minOn?_of_mem (f := conditionHierarchy) hmem
    rw [hmin] at hsome
    cases hsome
  · rename_i hmin
    have hle := le_of_minOn?_eq_some hmin hmem
    obtain ⟨t, ht, hcondition⟩ := List.mem_map.mp (List.minOn?_mem hmin)
    split_ifs
    · refine ⟨?_, .inl rfl⟩
      have hleast : conditionHierarchy .unreachableInactive ≤ conditionHierarchy .unreachable := by
        decide
      exact hleast.trans hle
    · exact ⟨hle, .inr ⟨t, ht, hcondition⟩⟩
  · rename_i hmin
    obtain ⟨t, ht, hcondition⟩ := List.mem_map.mp (List.minOn?_mem hmin)
    exact ⟨le_of_minOn?_eq_some hmin hmem, .inr ⟨t, ht, hcondition⟩⟩

end InstanceState

/-! ## Instances -/

/-- What is thrown instead of a result, without its text. -/
inductive Thrown
  | illegalArgument
  | illegalState
  | matchError
  | assertionError
deriving DecidableEq

def Thrown.name : Thrown → String
  | illegalArgument => "java.lang.IllegalArgumentException"
  | illegalState => "java.lang.IllegalStateException"
  | matchError => "scala.MatchError"
  | assertionError => "java.lang.AssertionError"

structure Instance where
  instanceId : InstanceId
  agentInfo : Option AgentInfo
  state : InstanceState
  tasksMap : Dict TaskId Task
  runSpec : RunSpec
  reservation : Option Reservation
  role : Role

namespace Instance

def runSpecId (i : Instance) : AbsolutePathId := i.runSpec.id

def runSpecVersion (i : Instance) : Timestamp := i.runSpec.version

def unreachableStrategy (i : Instance) : UnreachableStrategy := i.runSpec.unreachableStrategy

/-- The tasks, in the order of the map. -/
def tasks (i : Instance) : List Task := i.tasksMap.values

/-- It is to be launched: its goal is to be running, and it is not active. -/
def isScheduled (i : Instance) : Bool :=
  i.state.goal = .running && (i.state.condition.isTerminal || i.state.condition = .scheduled)

def isProvisioned (i : Instance) : Bool :=
  i.state.condition = .provisioned && i.state.goal = .running

def isActive (i : Instance) : Bool := i.state.condition.isActive

def hasReservation (i : Instance) : Bool := i.reservation.isSome

def hostname (i : Instance) : Option String := i.agentInfo.map AgentInfo.host

def hasConfiguredHealthChecks (i : Instance) : Bool :=
  match i.runSpec with
  | .app app => 0 < app.healthChecks.card || app.check.isSome || !app.readinessChecks.isEmpty
  | .pod pod => pod.containers.any fun container => container.healthCheck.isSome

def consideredHealthy (i : Instance) : Bool :=
  !i.hasConfiguredHealthChecks || i.state.healthy.getD false

/-- Only a scheduled instance can be provisioned. -/
def provisioned (i : Instance) (agentInfo : AgentInfo) (runSpec : RunSpec)
    (tasks : Dict TaskId Task) (now : Timestamp) : Except Thrown Instance :=
  if i.isScheduled then
    .ok
      { i with
        agentInfo := some agentInfo
        state := ⟨.provisioned, now, none, none, i.state.goal⟩
        tasksMap := tasks
        runSpec := runSpec }
  else .error .illegalArgument

def reserved (i : Instance) (reservation : Reservation) (agentInfo : AgentInfo) : Instance :=
  { i with reservation := some reservation, agentInfo := some agentInfo }

/-- A new instance, which has no tasks yet. -/
def scheduled (runSpec : RunSpec) (instanceId : InstanceId) (now : Timestamp) : Instance where
  instanceId := instanceId
  agentInfo := none
  state := ⟨.scheduled, now, none, none, .running⟩
  tasksMap := ∅
  runSpec := runSpec
  reservation := none
  role := runSpec.role

end Instance

namespace Tasks

def provisionedTask (taskId : TaskId) (networkInfo : NetworkInfo) (version now : Timestamp) :
    Task where
  taskId := taskId
  runSpecVersion := version
  status :=
    { stagedAt := now
      startedAt := none
      mesosStatus := none
      condition := .provisioned
      networkInfo := networkInfo }

/-- The tasks of an instance that is being provisioned; each needs its network info. -/
def provisioned (taskIds : List TaskId) (taskNetworkInfos : Dict TaskId NetworkInfo)
    (version now : Timestamp) : Except Thrown (Dict TaskId Task) :=
  let tasks := taskIds.mapM fun taskId => (taskNetworkInfos.lookup taskId).map fun networkInfo =>
    (taskId, provisionedTask taskId networkInfo version now)
  match tasks with
  | some tasks => .ok (Dict.ofBindings tasks)
  | none => .error .illegalState

section Provisioned

variable {taskIds : List TaskId} {taskNetworkInfos : Dict TaskId NetworkInfo}
  {version now : Timestamp} {tasks : Dict TaskId Task}

theorem lookup_provisioned (h : provisioned taskIds taskNetworkInfos version now = .ok tasks)
    (taskId : TaskId) (task : Task) :
    tasks.lookup taskId = some task ↔ taskId ∈ taskIds ∧ ∃ networkInfo,
      taskNetworkInfos.lookup taskId = some networkInfo ∧
        task = provisionedTask taskId networkInfo version now := by
  unfold provisioned at h
  dsimp only at h
  split at h
  · rename_i entries hentries
    cases h
    have hmem : ∀ task, (taskId, task) ∈ entries ↔ taskId ∈ taskIds ∧ ∃ networkInfo,
        taskNetworkInfos.lookup taskId = some networkInfo ∧
          task = provisionedTask taskId networkInfo version now := by
      intro task
      rw [mem_of_mapM hentries]
      constructor
      · rintro ⟨id, hid, hentry⟩
        obtain ⟨networkInfo, hinfo, heq⟩ := Option.map_eq_some_iff.mp hentry
        cases heq
        exact ⟨hid, networkInfo, hinfo, rfl⟩
      · rintro ⟨hid, networkInfo, hinfo, rfl⟩
        exact ⟨taskId, hid, Option.map_eq_some_iff.mpr ⟨networkInfo, hinfo, rfl⟩⟩
    obtain ⟨hsound, hcomplete⟩ := Dict.lookup_ofBindings_spec entries taskId
    constructor
    · intro hlookup
      exact (hmem task).mp (hsound task hlookup)
    · rintro ⟨hid, networkInfo, hinfo, rfl⟩
      obtain ⟨w, hw⟩ := hcomplete _ ((hmem _).mpr ⟨hid, networkInfo, hinfo, rfl⟩)
      -- all entries of an id are the same
      obtain ⟨_, networkInfo', hinfo', rfl⟩ := (hmem w).mp (hsound w hw)
      cases hinfo.symm.trans hinfo'
      exact hw
  · cases h

/-- Every id that is asked for has a task, when there is a network info for each of them. -/
theorem lookup_ne_none_of_provisioned
    (h : provisioned taskIds taskNetworkInfos version now = .ok tasks) {taskId : TaskId}
    (hmem : taskId ∈ taskIds) : ∃ task, tasks.lookup taskId = some task := by
  have hinfo : ∃ networkInfo, taskNetworkInfos.lookup taskId = some networkInfo := by
    unfold provisioned at h
    dsimp only at h
    split at h
    · rename_i entries hentries
      obtain ⟨entry, hentry⟩ := exists_eq_some_of_mapM hentries hmem
      obtain ⟨networkInfo, hnetwork, _⟩ := Option.map_eq_some_iff.mp hentry
      exact ⟨networkInfo, hnetwork⟩
    · cases h
  obtain ⟨networkInfo, hinfo⟩ := hinfo
  exact ⟨_, (lookup_provisioned h taskId _).mpr ⟨hmem, networkInfo, hinfo, rfl⟩⟩

end Provisioned

end Tasks

end Marathon
