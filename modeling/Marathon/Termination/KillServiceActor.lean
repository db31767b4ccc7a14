import Marathon.Deployment.TaskReplaceActor
import Marathon.Lib.Component
import Marathon.Lib.Entries

/-!
# The kill service

The actor keeps the instances that are to be killed in a queue and issues kill requests for
some of them at a time. An instance whose kill has been requested is in flight until it is
reported terminal; when it is not, the request is made again.
-/

namespace Marathon

open Lib Deployment

/-! ## What killing an instance means -/

/-- `KillAction`. -/
inductive KillAction
  | issueKillRequest
  | noop
  | decommission
deriving DecidableEq

namespace KillAction

/-- The conditions in which a task does not become terminal after a kill signal. -/
def wontRespondToKill : Condition → Bool
  | .unknown | .unreachable | .unreachableInactive | .dropped | .gone => true
  | _ => false

/-- The action for an instance, if it is known. -/
def ofInstance (knownInstance : Option Instance) : KillAction :=
  let hasReservations := knownInstance.elim false (·.hasReservation)
  let isUnkillable := (knownInstance.map (·.state.condition)).elim false wontRespondToKill
  let isGoalRunning := knownInstance.any (·.state.goal = .running)
  if isUnkillable && isGoalRunning then
    if hasReservations then .noop else .decommission
  else .issueKillRequest

/-- Only an instance that cannot be killed and has a reservation is left alone. -/
theorem ofInstance_eq_noop {knownInstance : Option Instance} (h : ofInstance knownInstance = .noop) :
    ∃ i, knownInstance = some i ∧ wontRespondToKill i.state.condition ∧ i.hasReservation := by
  cases knownInstance with
  | none => cases h
  | some i =>
    refine ⟨i, rfl, ?_⟩
    rw [ofInstance, Option.elim_some, Option.map_some, Option.elim_some] at h
    cases hunkillable : wontRespondToKill i.state.condition with
    | false => simp [hunkillable] at h
    | true =>
      cases hreservation : i.hasReservation with
      | false => cases hgoal : decide (i.state.goal = .running) <;> simp_all
      | true => exact ⟨rfl, rfl⟩

end KillAction

structure KillConfig where
  killChunkSize : ℤ
  killRetryTimeout : FiniteDuration

structure ToKill where
  instanceId : InstanceId
  taskIdsToKill : List TaskId
  maybeInstance : Option Instance
  attempts : ℕ
  issued : Timestamp

def ToKill.action (toKill : ToKill) : KillAction := .ofInstance toKill.maybeInstance

/-! ## The actor -/

/-- A hash map of what is to be killed, by the ids of the instances. -/
abbrev Kills := Keyed ToKill.instanceId

/-- An order in which a hash map goes through its values. -/
structure Kills.Order where
  list : Kills → List ToKill
  perm : ∀ kills, (list kills).Perm kills.values

namespace KillServiceActor

structure State where
  instancesToKill : Kills
  inFlight : Kills
  retryTimer : Bool

def State.initial : State := ⟨∅, ∅, false⟩

inductive Message
  | killUnknownTaskById (taskId : TaskId)
  | killInstances (instances : List Instance) (promise : ℕ)
  | killInstancesAndForget (instances : List Instance)
  | instanceChanged (id : InstanceId) (condition : Condition) (changed : Instance)
  | unknownInstanceTerminated (id : InstanceId)
  | retry

/-- What is asked of the driver and of the tracker, and the instances whose end completes a
promise. -/
inductive Effect
  | killTask (taskId : TaskId)
  | setGoal (id : InstanceId) (goal : Goal)
  | watchForKilledTasks (promise : ℕ) (ids : List InstanceId)
deriving DecidableEq

/-- A message with the time, whether a driver is registered, and the order of the hash maps. -/
structure Event where
  message : Message
  now : Timestamp
  driver : Bool
  order : Kills.Order

/-! ### The queue -/

namespace State

/-- An unknown task is put into the queue. -/
def queueTask (s : State) (taskId : TaskId) : State :=
  { s with
    instancesToKill :=
      s.instancesToKill.insert ⟨taskId.instanceId, [taskId], none, 0, .ofMillis 0⟩ }

/-- An instance is put into the queue, if it has tasks that are not terminal. -/
def enqueue (kills : Kills) (i : Instance) : Kills :=
  let taskIds := (i.tasks.filter fun task => !task.isTerminal).map (·.taskId)
  if taskIds.isEmpty then kills
  else kills.insert ⟨i.instanceId, taskIds, some i, 0, .ofMillis 0⟩

/-- The instances that are not in flight and have tasks are put into the queue. -/
def queueInstances (s : State) (instances : List Instance) : State :=
  let relevant := instances.filter fun i =>
    !((s.inFlight.lookup i.instanceId).isSome || i.tasks.isEmpty)
  { s with instancesToKill := relevant.foldl enqueue s.instancesToKill }

def remove (s : State) (id : InstanceId) : State :=
  { s with instancesToKill := s.instancesToKill.erase id, inFlight := s.inFlight.erase id }

/-- Whether an instance is in flight or in the queue. -/
def knows (s : State) (id : InstanceId) : Bool :=
  (s.inFlight.lookup id).isSome || (s.instancesToKill.lookup id).isSome

end State

/-! ### The handlers -/

section Handlers

variable (config : KillConfig) (event : Event)

def processKill (s : State) (toKill : ToKill) : List Effect × State :=
  let removed := { s with instancesToKill := s.instancesToKill.erase toKill.instanceId }
  match toKill.action with
  | .noop => ([], removed)
  | .issueKillRequest =>
    let attempts := (s.inFlight.lookup toKill.instanceId).elim 1 (·.attempts + 1)
    (if event.driver then toKill.taskIdsToKill.map .killTask else [],
      { removed with
        inFlight := s.inFlight.insert { toKill with attempts := attempts, issued := event.now } })
  | .decommission => ([.setGoal toKill.instanceId .decommissioned], removed)

/-- One kill after the other. -/
def processAll : State → List ToKill → List Effect × State
  | s, [] => ([], s)
  | s, toKill :: rest =>
    let (effects, next) := processKill event s toKill
    let (later, last) := processAll next rest
    (effects ++ later, last)

def killCount (s : State) : ℕ := (config.killChunkSize - s.inFlight.values.length).toNat

def toKillNow (s : State) : List ToKill :=
  (event.order.list s.instancesToKill).take (killCount config s)

def processKills (s : State) : List Effect × State :=
  let (effects, processed) := processAll event s (toKillNow config event s)
  (effects, { processed with retryTimer := !processed.inFlight.values.isEmpty })

def killUnknownTaskById (s : State) (taskId : TaskId) : List Effect × State :=
  if (s.inFlight.lookup taskId.instanceId).isSome then ([], s)
  else processKills config event (s.queueTask taskId)

def killInstances (s : State) (instances : List Instance) (maybePromise : Option ℕ) :
    List Effect × State :=
  let watched := maybePromise.toList.map fun promise =>
    .watchForKilledTasks promise (instances.map (·.instanceId))
  let (effects, next) := processKills config event (s.queueInstances instances)
  (watched ++ effects, next)

def handleTerminal (s : State) (id : InstanceId) : List Effect × State :=
  processKills config event (s.remove id)

def retry (s : State) : List Effect × State :=
  processAll event s ((event.order.list s.inFlight).filter fun toKill =>
    toKill.issued.plus config.killRetryTimeout < event.now)

end Handlers

def receive (config : KillConfig) : Component State Event (List Effect) := fun s event =>
  match event.message with
  | .killUnknownTaskById taskId => killUnknownTaskById config event s taskId
  | .killInstances instances promise => killInstances config event s instances (some promise)
  | .killInstancesAndForget instances => killInstances config event s instances none
  | .instanceChanged id condition changed =>
    if considerTerminal condition && s.knows id then handleTerminal config event s id
    else if changed.state.goal.isTerminal && !considerTerminal condition then
      if (s.instancesToKill.lookup id).isSome then ([], s)
      else killInstances config event s [changed] none
    else ([], s)
  | .unknownInstanceTerminated id =>
    if s.knows id then handleTerminal config event s id else ([], s)
  | .retry => retry config event s

end KillServiceActor

end Marathon
