import Marathon.Health.AppHealthCheckActor
import Marathon.Lib.Machine

/-!
# The actor of a health check

One actor for each health check of a version of an app. It combines a result with the health that
it knew of the instance when the result came, looks the instance up if the result is a failure, and
writes the new health back when the message about it is processed.
-/

namespace Marathon

open Lib

namespace Instance

def isRunning (i : Instance) : Bool := i.state.condition = .running

def isUnreachable (i : Instance) : Bool := i.state.condition = .unreachable

/-- `LegacyInstanceImprovement.appTask`. -/
def appTask (i : Instance) : Except Thrown Task :=
  match i.tasks.head? with
  | some task => .ok task
  | none => .error .illegalState

end Instance

/-- The parameters of the actor. -/
structure HealthCheckActor where
  app : AppDefinition
  healthCheck : HealthCheck

namespace HealthCheckActor

/-- What the actor asks of others. The timestamp of a kill event is a text in the source. -/
inductive Effect
  | failedHealthCheck (appId : AbsolutePathId) (instanceId : InstanceId) (healthCheck : HealthCheck)
  | unhealthyInstanceKillEvent (appId : AbsolutePathId) (taskId : TaskId) (instanceId : InstanceId)
      (version : Timestamp) (reason host : String) (slaveId : Option String) (timestamp : Timestamp)
  | killInstancesAndForget (instanceId : InstanceId)
  | healthCheckStatusChanged (appKey : ApplicationKey) (healthCheck : HealthCheck) (health : Health)
  | healthStatusChanged (appId : AbsolutePathId) (instanceId : InstanceId) (version : Timestamp)
      (alive : Bool)
  | purgeHealthCheckStatuses (toPurge : List (InstanceKey × HealthCheck))

def Effect.isKill : Effect → Bool
  | killInstancesAndForget _ => true
  | _ => false

section

variable (actor : HealthCheckActor)

/-- The instance is killed when `health`, which does not count the new failure, has
`maxConsecutiveFailures` failures in a row. -/
def checkConsecutiveFailures (i : Instance) (health : Health) (now : Timestamp) :
    Except Thrown (List Effect) :=
  let maxFailures := actor.healthCheck.maxConsecutiveFailures
  if maxFailures ≤ health.consecutiveFailures ∧ 0 < maxFailures then
    if i.isUnreachable then .ok []
    else if i.tasksMap.size ≠ 1 then .error .illegalArgument
    else do
      let task ← i.appTask
      .ok [
        .unhealthyInstanceKillEvent i.runSpecId task.taskId i.instanceId actor.app.version
          (health.lastFailureCause.getD "unknown") (i.hostname.getD "unknown")
          (i.agentInfo.bind AgentInfo.agentId) (health.lastFailure.getD now),
        .killInstancesAndForget i.instanceId]
  else .ok []

/-- Failures do not count before the first success within the grace period, and not for instances
that are not running. -/
def ignoreFailures (i : Instance) (health : Health) (now : Timestamp) : Bool :=
  if i.isRunning then
    health.firstSuccess.isNone && now < i.state.since.plus actor.healthCheck.gracePeriod
  else true

/-- What is asked of others on the tracker's answer to the lookup for a failure, and the new
health. -/
def lookedUp (result : HealthResult) (health : Health) (answer : Option Instance)
    (now : Timestamp) : List Effect × Except Thrown Health :=
  match answer with
  | some i =>
    if actor.ignoreFailures i health now then ([], .ok health)
    else
      let failed := if result.publishEvent then
        [Effect.failedHealthCheck actor.app.id result.instanceId actor.healthCheck] else []
      match actor.checkConsecutiveFailures i health now with
      | .ok kills => (failed ++ kills, health.update result)
      | .error thrown => (failed, .error thrown)
  | none => ([], health.update result)

end

/-! ## The machine -/

/-- The self-sent message. -/
structure InstanceHealth where
  result : HealthResult
  health : Health
  newHealth : Health

/-- A failure for which the tracker has been asked, with the health that was known, and the
position of its entry. -/
structure Lookup where
  result : HealthResult
  health : Health
  position : ℕ

/-- What the tracker answered, and when. -/
structure Answer where
  «instance» : Option Instance
  now : Timestamp

/-- What happened to one instance: a result was received, with the answer of the tracker once it is
there, or the status was purged. -/
inductive Entry
  | result (result : HealthResult) (answer : Option Answer)
  | purged

/-- `entries` and `kills` record what happened to each instance and which of its entries made the
actor kill it; nothing reads them. -/
structure State where
  healthByInstanceId : Dict InstanceId Health
  lookups : List Lookup
  mailbox : List InstanceHealth
  entries : InstanceId → List Entry
  kills : List (InstanceId × ℕ)

inductive Event
  | received (result : HealthResult)
  | lookedUp (position : ℕ) (answer : Answer)
  | lookupFailed (position : ℕ)
  | processed (position : ℕ)
  | purged (instances : List Instance)

namespace State

def empty : State := ⟨∅, [], [], fun _ => [], []⟩

/-- `healthByInstanceId.getOrElse(instanceId, Health(instanceId))`. -/
def health (s : State) (instanceId : InstanceId) : Health :=
  (s.healthByInstanceId.lookup instanceId).getD (.ofInstance instanceId)

def withEntries (s : State) (instanceId : InstanceId) (entries : List Entry) : State :=
  { s with entries := Function.update s.entries instanceId entries }

/-- `self ! InstanceHealth(result, health, newHealth)`. -/
def send (s : State) (message : InstanceHealth) : State :=
  { s with mailbox := message :: s.mailbox }

end State

section

variable (actor : HealthCheckActor)

/-- The result is combined with the health that is known now; the health of a failure is known
when the tracker has answered. -/
def handleHealthResult (s : State) (result : HealthResult) : State :=
  let instanceId := result.instanceId
  let health := s.health instanceId
  let s' := s.withEntries instanceId (s.entries instanceId ++ [.result result none])
  match result with
  | .healthy .. =>
    match health.update result with
    | .ok newHealth => s'.send ⟨result, health, newHealth⟩
    | .error _ => s'
  | .unhealthy .. =>
    { s' with lookups := ⟨result, health, (s.entries instanceId).length⟩ :: s'.lookups }
  | .ignored .. => s'.send ⟨result, health, health⟩

/-- The tracker answers. What is thrown then is only logged. -/
def completeLookup (s : State) (lookup : Lookup) (answer : Answer) : State × List Effect :=
  let instanceId := lookup.result.instanceId
  let s' := s.withEntries instanceId
    ((s.entries instanceId).set lookup.position (.result lookup.result (some answer)))
  let outcome := actor.lookedUp lookup.result lookup.health answer.instance answer.now
  let kills := if outcome.1.any Effect.isKill then [(instanceId, lookup.position)] else []
  let s' := { s' with kills := kills ++ s'.kills }
  match outcome.2 with
  | .ok newHealth => (s'.send ⟨lookup.result, lookup.health, newHealth⟩, outcome.1)
  | .error _ => (s', outcome.1)

/-- Whatever is known of the instance by now is overwritten. -/
def updateInstanceHealth (s : State) (message : InstanceHealth) : State × List Effect :=
  let result := message.result
  let changed := if message.health.alive ≠ message.newHealth.alive && result.publishEvent then
    [Effect.healthStatusChanged actor.app.id result.instanceId result.version
      message.newHealth.alive] else []
  (
    { s with
      healthByInstanceId := s.healthByInstanceId.insert result.instanceId message.newHealth },
    .healthCheckStatusChanged ⟨actor.app.id, actor.app.version⟩ actor.healthCheck
      message.newHealth :: changed)

def inactiveInstanceIds (instances : List Instance) : List InstanceId :=
  (instances.filter fun i => !i.isActive).map Instance.instanceId

def purgeStatusOfDoneInstances (s : State) (instances : List Instance) : State × List Effect :=
  let inactive := inactiveInstanceIds instances
  (
    { s with
      healthByInstanceId := s.healthByInstanceId.eraseAll inactive
      entries := fun instanceId =>
        if instanceId ∈ inactive then s.entries instanceId ++ [.purged] else s.entries instanceId },
    [.purgeHealthCheckStatuses ((instances.filter fun i => !i.isActive).map fun i =>
      (⟨⟨i.runSpecId, i.runSpecVersion⟩, i.instanceId⟩, actor.healthCheck))])

/-- The state after an event and what the actor asks of others. Results for another version of the
app are not handled; the lookup that fails is only logged. -/
def receive (s : State) : Event → Option (State × List Effect)
  | .received result =>
    if result.version = actor.app.version then some (handleHealthResult s result, [])
    else some (s, [])
  | .lookedUp position answer => s.lookups[position]?.map fun lookup =>
      completeLookup actor { s with lookups := s.lookups.eraseIdx position } lookup answer
  | .lookupFailed position => s.lookups[position]?.map fun _ =>
      ({ s with lookups := s.lookups.eraseIdx position }, [])
  | .processed position => s.mailbox[position]?.map fun message =>
      updateInstanceHealth actor { s with mailbox := s.mailbox.eraseIdx position } message
  | .purged instances => some (purgeStatusOfDoneInstances actor s instances)

def machine : Machine State Event where
  Init s := s = .empty
  step s event := (receive actor s event).map Prod.fst

end

end HealthCheckActor

end Marathon
