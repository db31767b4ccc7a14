import Marathon.Launcher.InstanceOp
import Marathon.LaunchQueue.RateLimiter
import Marathon.Lib.Keyed

/-!
# The task launcher of a run spec

`TaskLauncherActor` matches offers with the scheduled instances of one run spec. It works on a
map of its own: it marks an instance as provisioned before that is persisted, and fetches an
instance from the tracker again whenever something is heard of it.
-/

namespace Marathon.LaunchQueue

open Lib RateLimiter

namespace TaskLauncherActor

/-- What the actor receives: everything but the answer it waits for is stashed while it is loading
or syncing. -/
inductive Receive
  | loading
  | syncing (instanceId : InstanceId)
  | active
deriving DecidableEq

end TaskLauncherActor

structure TaskLauncherActor where
  runSpecId : AbsolutePathId
  receive : TaskLauncherActor.Receive
  /-- The instances that are in the tracker. -/
  instanceMap : Keyed Instance.instanceId
  /-- The operations whose timeout is running. -/
  offerOperationAcceptTimeout : Dict InstanceId InstanceOp
  /-- When the next check is scheduled. -/
  recheckBackOff : Option Timestamp
  /-- The times at which a version of the run spec is allowed to launch. -/
  launchAllowedAt : Dict RunSpecConfigRef Timestamp
  registeredAsMatcher : Bool

variable {now t : Timestamp} {instanceId : InstanceId} {ref : RunSpecConfigRef}

namespace TaskLauncherActor

def start (runSpecId : AbsolutePathId) : TaskLauncherActor :=
  ⟨runSpecId, .loading, ∅, ∅, none, ∅, false⟩

def offerOperationRejectedTimeoutReason : String :=
  "InstanceLauncherActor: no accept received within timeout. " ++
    "You can reconfigure the timeout with --task_operation_notification_timeout."

variable (a : TaskLauncherActor)

def inFlightInstanceOperations : List Instance := a.instanceMap.values.filter Instance.isProvisioned

def scheduledInstances : List Instance := a.instanceMap.values.filter Instance.isScheduled

def scheduledVersions : List RunSpecConfigRef :=
  (a.scheduledInstances.map fun i => i.runSpec.configRef).dedup

/-- It is assumed that an instance cannot be launched until a delay update is received for its
config. -/
def launchAllowed (now : Timestamp) (configRef : RunSpecConfigRef) : Bool :=
  (a.launchAllowedAt.lookup configRef).any fun t => t ≤ now

def shouldLaunchInstances (now : Timestamp) : Bool :=
  !a.scheduledInstances.isEmpty && a.scheduledVersions.any (a.launchAllowed now)

def unregister : TaskLauncherActor := { a with registeredAsMatcher := false }

def manageOfferMatcherStatus (now : Timestamp) : TaskLauncherActor :=
  let shouldBeRegistered := a.shouldLaunchInstances now
  if shouldBeRegistered && !a.registeredAsMatcher then { a with registeredAsMatcher := true }
  else if !shouldBeRegistered && a.registeredAsMatcher then a.unregister
  else a

def scheduleNextManageOfferStatus (now : Timestamp) : TaskLauncherActor :=
  { a with recheckBackOff := (a.launchAllowedAt.values.filter fun t => now < t).min? }

/-- An update for a config that no scheduled instance has is dropped. -/
def receiveDelayUpdate (now : Timestamp) (update : DelayUpdate) : TaskLauncherActor :=
  if update.ref ∈ a.scheduledVersions then
    let launchAllowedAt := a.launchAllowedAt.insert update.ref <| match update.delay with
      | some delay => delay.deadline
      -- if there's no delay, then launch immediately
      | none => now
    ({ a with launchAllowedAt := launchAllowedAt }.manageOfferMatcherStatus now)
      |>.scheduleNextManageOfferStatus now
  else a

def syncInstance (instanceId : InstanceId) : TaskLauncherActor :=
  { a with receive := .syncing instanceId }

def cancelTimeout (instanceId : InstanceId) : TaskLauncherActor :=
  { a with offerOperationAcceptTimeout := a.offerOperationAcceptTimeout.erase instanceId }

/-- The refs of `launchAllowedAt` that no scheduled instance has. -/
def deletedConfigRefs : List RunSpecConfigRef :=
  a.launchAllowedAt.keys.filter fun ref => ref ∉ a.scheduledVersions

def removeInstanceFromInternalState (now : Timestamp) (instanceId : InstanceId) :
    TaskLauncherActor :=
  let a := { a with instanceMap := a.instanceMap.erase instanceId }.cancelTimeout instanceId
  -- remove backoffs for deleted config refs
  { a with launchAllowedAt := a.launchAllowedAt.eraseAll a.deletedConfigRefs }
    |>.manageOfferMatcherStatus now

/-- `InstanceOpRejected`. The local state may be ahead of the tracker's, and a timeout brings it
back. -/
def receiveInstanceOpRejected (op : InstanceOp) (reason : String) : TaskLauncherActor :=
  if reason = offerOperationRejectedTimeoutReason then
    if a.inFlightInstanceOperations.any (fun i => i.instanceId = op.instanceId) &&
        op.instanceId ∈ a.offerOperationAcceptTimeout then
      a.syncInstance op.instanceId
    else a
  else a.syncInstance op.instanceId

/-- `InstanceOpAccepted`. -/
def receiveInstanceOpAccepted (op : InstanceOp) : TaskLauncherActor := a.cancelTimeout op.instanceId

/-- `LoadedInstances`; the refs are those whose delay the rate limiter is asked for. -/
def receiveLoadedInstances (loadedInstances : Keyed Instance.instanceId) :
    TaskLauncherActor × List RunSpecConfigRef :=
  let a := { a with instanceMap := loadedInstances }
  ({ a with receive := .active }, a.scheduledVersions)

/-- The instance as the tracker has it takes the place of the local one, whatever that is. -/
def syncedInstance (i : Instance) : TaskLauncherActor :=
  let a := { a with instanceMap := a.instanceMap.insert i }
  if !i.isProvisioned then a.cancelTimeout i.instanceId else a

/-- `SynchronizedInstance`. No offers are wanted until the delay of a new config is known. -/
def receiveSynchronizedInstance (now : Timestamp) (instanceId : InstanceId) :
    Option Instance → TaskLauncherActor × List RunSpecConfigRef
  | some i =>
    let synced := a.syncedInstance i
    if i.runSpec.configRef ∉ synced.launchAllowedAt then
      ({ synced.unregister.manageOfferMatcherStatus now with receive := .active },
        [i.runSpec.configRef])
    else ({ synced.manageOfferMatcherStatus now with receive := .active }, [])
  | none =>
    ({ (a.removeInstanceFromInternalState now instanceId).manageOfferMatcherStatus now with
        receive := .active }, [])

def candidateInstances (now : Timestamp) (role : Role) : List Instance :=
  (a.scheduledInstances.filter fun i => role = i.role).filter fun i =>
    a.launchAllowed now i.runSpec.configRef

/-- An instance with an operation, and the timeout of the operation. -/
def withInstanceOp (i : Instance) (op : InstanceOp) : TaskLauncherActor :=
  { a with
    instanceMap := a.instanceMap.insert i
    offerOperationAcceptTimeout := a.offerOperationAcceptTimeout.insert op.instanceId op }

def handleInstanceOp (now : Timestamp) (op : InstanceOp) : Except Thrown TaskLauncherActor :=
  match op.stateOp with
  | .provision instanceId agentInfo runSpec tasks provisionedAt =>
    match a.instanceMap.lookup instanceId with
    | some existingInstance => do
      let i ← existingInstance.provisioned agentInfo runSpec tasks provisionedAt
      return (a.withInstanceOp i op).manageOfferMatcherStatus now
    | none => .error .assertionError
  | .reserve instanceId reservation agentInfo =>
    match a.instanceMap.lookup instanceId with
    | some existingInstance =>
      .ok <| (a.withInstanceOp (existingInstance.reserved reservation agentInfo) op)
        |>.manageOfferMatcherStatus now
    | none => .error .assertionError
  | _ => .ok (a.manageOfferMatcherStatus now)

/-- `receiveProcessOffers`: the operation that is issued for an offer, if there is one. -/
def receiveProcessOffers (now : Timestamp) (role : Role) (m : OfferMatching) :
    Except Thrown (TaskLauncherActor × Option InstanceOp) :=
  if !a.shouldLaunchInstances now then .ok (a, none)
  else do
    match ← InstanceOpFactory.matchOfferRequest { m with now := now }
        (a.candidateInstances now role) with
    | some op => do
      let a ← a.handleInstanceOp now op
      return (a, some op)
    | none => return (a, none)

/-! ## What the handlers leave as it is -/

variable {a}

end TaskLauncherActor

end Marathon.LaunchQueue
