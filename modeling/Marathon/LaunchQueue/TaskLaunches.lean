import Marathon.LaunchQueue.TaskLauncherActor
import Marathon.Launcher.RevertedLaunches
import Marathon.State.RootGroup

/-!
# Launches of a run spec

The task launcher of a run spec together with those it works with: the rate limiter, the tracker,
which holds what is persisted, and the offer processor, which persists an operation and accepts or
rejects it. What one of them sends to the launcher arrives at some time, in any order.
-/

namespace Marathon.LaunchQueue.TaskLaunches

open Lib RateLimiter

/-! ## Messages -/

/-- What is sent to the launcher, apart from offers and the answers of the tracker. -/
inductive Message
  | delayUpdate (update : DelayUpdate)
  | recheckIfBackOffUntilReached
  | instanceOpRejected (op : InstanceOp) (reason : String)
  | instanceOpAccepted (op : InstanceOp)
  | instanceUpdated (i : Instance)
  | instanceDeleted (i : Instance)

/-- What the tracker answers. -/
inductive Answer
  | loadedInstances (value : Keyed Instance.instanceId)
  | synchronizedInstance (value : Option Instance)

/-- What the launch queue forwards to the launcher of the run spec once an effect has been
persisted. -/
def notifications (runSpecId : AbsolutePathId) : InstanceUpdateEffect → List Message
  | .update i _ _ => if i.runSpecId = runSpecId then [.instanceUpdated i] else []
  | .expunge i _ => if i.runSpecId = runSpecId then [.instanceDeleted i] else []
  | .noop _ | .failure _ => []

/-- `instancesMap(runSpecId)`. -/
def specInstances (instances : InstancesBySpec) (runSpecId : AbsolutePathId) :
    Keyed Instance.instanceId :=
  (instances.values.filter fun i => i.runSpecId = runSpecId).foldl Keyed.insert ∅

/-! ## The state -/

/-- What has become of an operation. It is over when it has been rejected, when it has timed out,
and when what it made of the instance was persisted and has been superseded in the tracker. -/
inductive OpStatus
  | issued
  | persisted
  | ended
deriving DecidableEq

structure IssuedOp where
  op : InstanceOp
  status : OpStatus

structure State where
  now : Timestamp
  rateLimiter : RateLimiterActor.State
  tracker : InstancesBySpec
  launcher : TaskLauncherActor
  /-- The operations that the launcher has issued, the last one first. -/
  ops : List IssuedOp
  /-- The answer to the launcher's query, once the tracker has read it. -/
  answer : Option Answer
  /-- The refs of the launcher's `GetDelay` messages that have not arrived. -/
  getDelays : List RunSpecConfigRef
  /-- The messages to the launcher that have not arrived. -/
  messages : List Message
  /-- The delay updates that the launcher has received, the last one first. -/
  received : List DelayUpdate

inductive Event
  | tick (now : Timestamp)
  | rateLimiter (m : RateLimiterActor.Message)
  | getDelay (position : ℕ)
  /-- The tracker processes an operation that the offer processor has nothing to do with. -/
  | process (stateOp : InstanceUpdateOperation)
  /-- The tracker reads what the launcher has asked for. -/
  | read
  /-- The answer arrives. -/
  | answered
  | recheck
  | timeout (position : ℕ)
  /-- The offer processor has the operation persisted. -/
  | save (position : ℕ)
  | accept (position : ℕ)
  | reject (position : ℕ) (reason : String)
  | matchOffer (role : Role) (m : {m : OfferMatching // m.Lawful})
  /-- The message at this position arrives. -/
  | deliver (position : ℕ)

/-! ## The steps -/

namespace State

variable (s : State)

def send (messages : List Message) : State := { s with messages := s.messages ++ messages }

/-- `LaunchQueueActor` forwards what concerns the run spec. -/
def forward (updates : List DelayUpdate) : State :=
  s.send ((updates.filter fun u => u.ref.id = s.launcher.runSpecId).map .delayUpdate)

/-- The status of an operation when the instance is changed in the tracker. -/
def superseded (id : InstanceId) (o : IssuedOp) : IssuedOp :=
  if o.op.instanceId = id ∧ o.status = .persisted then { o with status := .ended } else o

/-- An effect on an instance is persisted. -/
def persist (id : InstanceId) (effect : InstanceUpdateEffect) : State :=
  if effect.changes then
    { s with
      tracker := s.tracker.update effect
      ops := s.ops.map (superseded id) }.send (notifications s.launcher.runSpecId effect)
  else s

def setStatus (position : ℕ) (o : IssuedOp) (status : OpStatus) : State :=
  { s with ops := s.ops.set position { o with status := status } }

def effectOf (stateOp : InstanceUpdateOperation) : Option InstanceUpdateEffect :=
  (InstanceUpdateOpResolver.resolve s.now (s.tracker.lookup stateOp.instanceId) stateOp).toOption

/-- The operation is saved, unless it has no effect. -/
def saved (position : ℕ) (o : IssuedOp) (effect : InstanceUpdateEffect) : State :=
  if effect.changes ∧ o.status = .issued then
    (s.persist o.op.instanceId effect).setStatus position o .persisted
  else s.persist o.op.instanceId effect

/-- A message that the active launcher receives. -/
def handle : Message → State
  | .delayUpdate update =>
    { s with
      launcher := s.launcher.receiveDelayUpdate s.now update
      received := update :: s.received }
  | .recheckIfBackOffUntilReached =>
    { s with launcher := s.launcher.manageOfferMatcherStatus s.now }
  | .instanceOpRejected op reason =>
    { s with launcher := s.launcher.receiveInstanceOpRejected op reason }
  | .instanceOpAccepted op => { s with launcher := s.launcher.receiveInstanceOpAccepted op }
  | .instanceUpdated i => { s with launcher := s.launcher.syncInstance i.instanceId }
  | .instanceDeleted i =>
    { s with launcher := s.launcher.removeInstanceFromInternalState s.now i.instanceId }

/-- The launcher after an answer, and what it asks the rate limiter for. -/
def answeredWith (p : TaskLauncherActor × List RunSpecConfigRef) : State :=
  { s with
    launcher := p.1
    answer := none
    getDelays := s.getDelays ++ p.2 }

/-- The launcher after an offer, and the operation it issues. -/
def matched (p : TaskLauncherActor × Option InstanceOp) : State :=
  { s with
    launcher := p.1
    ops := p.2.toList.map (fun op => ⟨op, .issued⟩) ++ s.ops }

def dropMessage (position : ℕ) : State := { s with messages := s.messages.eraseIdx position }

end State

open State

def step (s : State) : Event → Option State
  | .tick now => if s.now ≤ now then some { s with now := now } else none
  | .rateLimiter m =>
    let p := RateLimiterActor.receive s.rateLimiter s.now m
    some ({ s with rateLimiter := p.1 }.forward p.2)
  | .getDelay position => s.getDelays[position]?.map fun ref =>
      { s with getDelays := s.getDelays.eraseIdx position }.send
        [.delayUpdate ⟨ref, s.rateLimiter.rateLimiter.getDelay ref⟩]
  | .process stateOp => (s.effectOf stateOp).map (s.persist stateOp.instanceId)
  | .read =>
    match s.answer, s.launcher.receive with
    | none, .loading =>
      some { s with answer := some (.loadedInstances (specInstances s.tracker s.launcher.runSpecId)) }
    | none, .syncing id =>
      some { s with answer := some (.synchronizedInstance (s.tracker.lookup id)) }
    | _, _ => none
  | .answered =>
    match s.launcher.receive, s.answer with
    | .loading, some (.loadedInstances value) =>
      some (s.answeredWith (s.launcher.receiveLoadedInstances value))
    | .syncing id, some (.synchronizedInstance value) =>
      some (s.answeredWith (s.launcher.receiveSynchronizedInstance s.now id value))
    | _, _ => none
  | .recheck =>
    if s.launcher.recheckBackOff.any fun t => t ≤ s.now then
      some (s.send [.recheckIfBackOffUntilReached])
    else none
  -- the message of a timeout that is canceled may be on its way already
  | .timeout position => s.ops[position]?.map fun o =>
      (s.setStatus position o .ended).send
        [.instanceOpRejected o.op TaskLauncherActor.offerOperationRejectedTimeoutReason]
  | .save position => s.ops[position]?.bind fun o =>
      (s.effectOf o.op.stateOp).map (s.saved position o)
  | .accept position => s.ops[position]?.map fun o => s.send [.instanceOpAccepted o.op]
  | .reject position reason => s.ops[position]?.map fun o =>
      (s.setStatus position o .ended).send [.instanceOpRejected o.op reason]
  | .matchOffer role m =>
    if s.launcher.receive = .active then
      ((s.launcher.receiveProcessOffers s.now role m.1).toOption).map s.matched
    else none
  | .deliver position =>
    if s.launcher.receive = .active then
      s.messages[position]?.map fun m => (s.dropMessage position).handle m
    else none

variable {s : State} (id : InstanceId) (effect : InstanceUpdateEffect) (position : ℕ)
  (o : IssuedOp)

namespace Shop

/-! The launcher of an app, and an offer that has whatever is asked for. -/

def runSpec : RunSpec := .app (plainApp ⟨["shop"]⟩ ∅)

def scheduled (uuid : ℕ) : Instance :=
  .scheduled runSpec ⟨⟨["shop"]⟩, .instance, ⟨uuid⟩⟩ ⟨0⟩

def offer : Event :=
  .matchOffer "*" ⟨OfferProcessor.Reverts.matching, fun _ _ => List.mem_of_head?⟩

def started (tracker : InstancesBySpec) : State where
  now := ⟨10⟩
  rateLimiter := ⟨⟨∅⟩, true⟩
  tracker := tracker
  launcher := .start ⟨["shop"]⟩
  ops := []
  answer := none
  getDelays := []
  messages := []
  received := []

end Shop

end Marathon.LaunchQueue.TaskLaunches
