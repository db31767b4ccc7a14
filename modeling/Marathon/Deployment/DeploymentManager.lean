import Marathon.Lib.Dict
import Marathon.Lib.Machine
import Marathon.State.PathId

/-!
# The deployment manager

`DeploymentManagerActor` with everything it talks to: its mailbox, the futures
its handlers leave behind, the deployment repository, the `DeploymentActor`s it
spawns and the `StopActor`s that cancel them. One event is one message handled,
one repository operation completed, one future continued or one step of a child
actor, so that a run is any interleaving of these.

`deploymentStatus` only answers `ListRunningDeployments` and is left out.
-/

namespace Marathon.Deployment

open Marathon.Lib

/-- What the manager reads of a `DeploymentPlan`. -/
structure Plan where
  id : String
  affectedRunSpecIds : Finset AbsolutePathId
deriving DecidableEq

/-- The two plans have a common run spec. -/
def Plan.Intersects (p q : Plan) : Prop := (p.affectedRunSpecIds ∩ q.affectedRunSpecIds).Nonempty

instance (p q : Plan) : Decidable (p.Intersects q) :=
  inferInstanceAs (Decidable (p.affectedRunSpecIds ∩ q.affectedRunSpecIds).Nonempty)

theorem Plan.Intersects.symm {p q : Plan} (h : p.Intersects q) : q.Intersects p := by
  simpa only [Plan.Intersects, Finset.inter_comm] using h

inductive DeploymentStatus
  | scheduled
  | canceling
  | deploying
deriving DecidableEq

/-- `ref` is the name of the spawned `DeploymentActor`, which is the plan id;
`cancel` is the future of a `StopActor`, `promise` the deployment promise. -/
structure DeploymentInfo where
  ref : Option String
  plan : Plan
  status : DeploymentStatus
  cancel : Option ℕ
  promise : ℕ
deriving DecidableEq

/-- With what a deployment promise is completed. -/
inductive PromiseResult
  | done
  | deploymentFailed
  | deploymentCanceled
  | repositoryFailed
deriving DecidableEq

/-- The messages the manager sends to itself or gets from a `DeploymentActor`. -/
inductive Msg
  | deploymentFinished (plan : Plan) (result : PromiseResult)
  | launchDeployment (plan : Plan)
  | cancelDeletedConflicts (plan : Plan) (conflicts : List DeploymentInfo)
  | waitForCanceledConflicts (plan : Plan) (conflicts : List DeploymentInfo)
  | failedRepositoryOperation (plan : Plan)
deriving DecidableEq

/-- An `async` block that waits for repository operations or cancellations. -/
inductive Async
  | startNonConflictingDeployment (plan : Plan) (store : ℕ)
  | startConflictingDeployment (plan : Plan) (conflicts : List DeploymentInfo) (deletes : List ℕ)
  | cancelDeletedConflicts (plan : Plan) (conflicts : List DeploymentInfo) (store : ℕ)
  | waitForCanceledConflicts (plan : Plan) (cancellations : List ℕ)
deriving DecidableEq

inductive RepositoryOp
  | store (plan : Plan)
  | delete (id : String)
deriving DecidableEq

/-- The key by which the repository serialises its operations. -/
def RepositoryOp.key : RepositoryOp → String
  | .store plan => plan.id
  | .delete id => id

/-- What the manager tells the sender of a deployment. -/
inductive Reply
  | deploymentStarted (plan : Plan)
  | deploymentFailed (plan : Plan) (lockedBy : List String)
deriving DecidableEq

/-- A child is `stopping` once it has called `context.stop(self)` or has thrown. -/
inductive ActorPhase
  | running
  | stopping
  | terminated
deriving DecidableEq

structure DeploymentActor where
  plan : Plan
  cancelRequested : Bool
  phase : ActorPhase
deriving DecidableEq

structure StopActor where
  toStop : String
  promiseDone : Bool
deriving DecidableEq

/-- The manager and its environment. `seen` has every plan scheduled so far: it is
not in the source, and says that the id of a new plan, a UUID, is fresh. -/
structure State where
  runningDeployments : Dict String DeploymentInfo
  runningDeploymentsMetric : ℤ
  totalDeploymentsMetric : ℕ
  promises : List (Option PromiseResult)
  mailbox : List Msg
  asyncs : List Async
  repository : Dict String Plan
  pendingOps : List (ℕ × RepositoryOp)
  opResults : Dict ℕ Bool
  nextOp : ℕ
  deploymentActors : Dict String DeploymentActor
  stopActors : List StopActor
  replies : List Reply
  seen : Dict String Plan

/-! ## The handlers -/

namespace State

def isScheduledDeployment (s : State) (id : String) : Bool :=
  match s.runningDeployments.lookup id with
  | some info => info.status = .scheduled
  | none => false

def conflictingDeployments (s : State) (thisPlan : Plan) : List DeploymentInfo :=
  s.runningDeployments.values.filter fun info => info.plan.Intersects thisPlan

def send (s : State) (m : Msg) : State := { s with mailbox := s.mailbox ++ [m] }

def reply (s : State) (r : Reply) : State := { s with replies := s.replies ++ [r] }

/-- Hands an operation to the repository; its future is named by `nextOp`. -/
def submit (s : State) (op : RepositoryOp) : State :=
  { s with pendingOps := s.pendingOps ++ [(s.nextOp, op)], nextOp := s.nextOp + 1 }

def await (s : State) (a : Async) : State := { s with asyncs := s.asyncs ++ [a] }

/-- A promise can be completed once; completing it again throws. -/
def complete (s : State) (promise : ℕ) (r : PromiseResult) : Option State :=
  if s.promises[promise]? = some none then
    some { s with promises := s.promises.set promise (some r) }
  else none

/-- Saves a new `DeploymentInfo` in status `scheduled`. -/
def markScheduled (s : State) (plan : Plan) : State :=
  { s with
    runningDeploymentsMetric := s.runningDeploymentsMetric + 1
    totalDeploymentsMetric := s.totalDeploymentsMetric + 1
    promises := s.promises ++ [none]
    runningDeployments := s.runningDeployments.insert plan.id
      { ref := none, plan := plan, status := .scheduled, cancel := none,
        promise := s.promises.length }
    seen := s.seen.insert plan.id plan }

/-- `runningDeployments.remove(id)` together with the failure of its promise. -/
def removeAndComplete (s : State) (id : String) (r : PromiseResult) : Option State :=
  match s.runningDeployments.lookup id with
  | some info =>
    { s with runningDeployments := s.runningDeployments.erase id }.complete info.promise r
  | none => some s

def giveUpConflictingDeployment (s : State) (plan : Plan) : State :=
  s.reply (.deploymentFailed plan ((s.conflictingDeployments plan).map (·.plan.id)))

def startNonConflictingDeployment (s : State) (plan : Plan) : State :=
  ((s.markScheduled plan).submit (.store plan)).await
    (.startNonConflictingDeployment plan s.nextOp)

/-- `repository.delete` for every conflict; the names of the futures are returned. -/
def deleteAll (s : State) : List DeploymentInfo → State × List ℕ
  | [] => (s, [])
  | info :: rest =>
    let (s', ops) := (s.submit (.delete info.plan.id)).deleteAll rest
    (s', s.nextOp :: ops)

def startConflictingDeployment (s : State) (plan : Plan) (conflicts : List DeploymentInfo) :
    State :=
  let (s', deletes) := (s.markScheduled plan).deleteAll conflicts
  s'.await (.startConflictingDeployment plan conflicts deletes)

/-- `stopActor`: the new `StopActor` watches the child and sends it `Cancel`. -/
def stopActor (s : State) (ref : String) : State × ℕ :=
  let actors := match s.deploymentActors.lookup ref with
    | some a => s.deploymentActors.insert ref { a with cancelRequested := true }
    | none => s.deploymentActors
  ({ s with deploymentActors := actors, stopActors := s.stopActors ++ [⟨ref, false⟩] },
    s.stopActors.length)

/-- Throws where the id is not running or its entry has no `ref`. -/
def stopDeployment (s : State) (id : String) : Option State := do
  let info ← s.runningDeployments.lookup id
  let ref ← info.ref
  let (s', stopFuture) := s.stopActor ref
  return { s' with
    runningDeployments := s'.runningDeployments.insert id
      { info with status := .canceling, cancel := some stopFuture } }

/-- Which branch is taken is decided by the status in the snapshot `info`. -/
def cancelConflict (s : State) (info : DeploymentInfo) : Option State :=
  match info.status with
  | .scheduled =>
    { s with runningDeploymentsMetric := s.runningDeploymentsMetric - 1 }.removeAndComplete
      info.plan.id .deploymentCanceled
  | .deploying => s.stopDeployment info.plan.id
  | .canceling => some s

def cancelDeletedConflicts (s : State) (plan : Plan) (conflicts : List DeploymentInfo) :
    Option State := do
  let known := conflicts.filter fun info => info.plan.id ∈ s.runningDeployments
  let s ← known.foldlM cancelConflict s
  return (s.submit (.store plan)).await (.cancelDeletedConflicts plan conflicts s.nextOp)

/-- The cancellation futures are those of the snapshot, not of `runningDeployments`. -/
def waitForCanceledConflicts (s : State) (plan : Plan) (conflicts : List DeploymentInfo) : State :=
  let toCancel := conflicts.filter fun info => info.status = .canceling
  s.await (.waitForCanceledConflicts plan (toCancel.filterMap (·.cancel)))

def cancelDeployment (s : State) (id : String) : Option State :=
  match s.runningDeployments.lookup id with
  | some info =>
    match info.status, info.ref with
    | .scheduled, _ =>
      { s with runningDeploymentsMetric := s.runningDeploymentsMetric - 1 }.removeAndComplete
        id .deploymentCanceled
    | .deploying, some _ => s.stopDeployment id
    | .canceling, _ => some s
    | .deploying, none => some s
  | none => some s

/-- `context.actorOf` throws when a child of this name has not terminated. -/
def childNameFree (s : State) (id : String) : Bool :=
  match s.deploymentActors.lookup id with
  | some a => a.phase = .terminated
  | none => true

def startDeployment (s : State) (info : DeploymentInfo) : Option State :=
  if s.childNameFree info.plan.id then
    (s.runningDeployments.lookup info.plan.id).map fun current =>
      { s with
        deploymentActors := s.deploymentActors.insert info.plan.id
          { plan := info.plan, cancelRequested := false, phase := .running }
        runningDeployments := s.runningDeployments.insert info.plan.id
          { current with ref := some info.plan.id, status := .deploying } }
  else none

def deploymentFinished (s : State) (plan : Plan) (result : PromiseResult) : Option State :=
  let s := { s with runningDeploymentsMetric := s.runningDeploymentsMetric - 1 }
  match s.runningDeployments.lookup plan.id with
  | some info =>
    ({ s with runningDeployments := s.runningDeployments.erase plan.id }.submit
      (.delete plan.id)).complete info.promise result
  | none => some s

/-- `StartDeployment(plan, origSender, force)`. -/
def start (s : State) (plan : Plan) (force : Bool) : State :=
  let conflicts := s.conflictingDeployments plan
  if conflicts = [] then s.startNonConflictingDeployment plan
  else if force then s.startConflictingDeployment plan conflicts
  else s.giveUpConflictingDeployment plan

/-- `receive` for the messages of the mailbox; `none` is an exception. A message
whose guard fails is not handled. -/
def receive (s : State) : Msg → Option State
  | .deploymentFinished plan result => s.deploymentFinished plan result
  | .launchDeployment plan =>
    if s.isScheduledDeployment plan.id then
      (s.runningDeployments.lookup plan.id).bind s.startDeployment
    else some s
  | .cancelDeletedConflicts plan conflicts =>
    if s.isScheduledDeployment plan.id then s.cancelDeletedConflicts plan conflicts else some s
  | .waitForCanceledConflicts plan conflicts =>
    if s.isScheduledDeployment plan.id then some (s.waitForCanceledConflicts plan conflicts)
    else some s
  | .failedRepositoryOperation plan =>
    if s.isScheduledDeployment plan.id then
      { s with runningDeploymentsMetric := s.runningDeploymentsMetric - 1 }.removeAndComplete
        plan.id .repositoryFailed
    else some s

/-! ## The futures and the repository -/

/-- `Future.sequence`: looks at the futures from left to right. -/
def sequence : List (Option Bool) → Option Bool
  | [] => some true
  | none :: _ => none
  | some false :: _ => some false
  | some true :: rest => sequence rest

def opResult (s : State) (op : ℕ) : Option Bool := s.opResults.lookup op

def stopFutureDone (s : State) (stop : ℕ) : Bool :=
  match s.stopActors[stop]? with
  | some a => a.promiseDone
  | none => false

/-- The message sent when the awaited futures are completed, with the reply to
the original sender; `none` while they are not. -/
def continueAsync (s : State) : Async → Option (List Reply × Msg)
  | .startNonConflictingDeployment plan store =>
    (s.opResult store).map fun ok =>
      if ok then ([.deploymentStarted plan], .launchDeployment plan)
      else ([], .failedRepositoryOperation plan)
  | .startConflictingDeployment plan conflicts deletes =>
    (sequence (deletes.map s.opResult)).map fun ok =>
      if ok then ([], .cancelDeletedConflicts plan conflicts)
      else ([], .failedRepositoryOperation plan)
  | .cancelDeletedConflicts plan conflicts store =>
    (s.opResult store).map fun ok =>
      if ok then ([.deploymentStarted plan], .waitForCanceledConflicts plan conflicts)
      else ([], .failedRepositoryOperation plan)
  | .waitForCanceledConflicts plan cancellations =>
    if cancellations.all s.stopFutureDone then some ([], .launchDeployment plan) else none

def applyOp (repository : Dict String Plan) : RepositoryOp → Dict String Plan
  | .store plan => repository.insert plan.id plan
  | .delete id => repository.erase id

end State

/-! ## The steps -/

inductive Event
  | startDeployment (plan : Plan) (force : Bool)
  | cancelDeployment (plan : Plan)
  /-- The manager handles the message at this place of its mailbox. -/
  | deliver (k : ℕ)
  /-- The repository completes an operation, the first of its key. -/
  | completeOp (k : ℕ) (ok : Bool)
  /-- An `async` block goes on. -/
  | resume (k : ℕ)
  /-- The last step is done, or a step failed. -/
  | actorDone (id : String) (result : PromiseResult)
  | actorCancelled (id : String)
  /-- The child throws and is stopped by its supervisor. -/
  | actorCrashed (id : String)
  | actorTerminated (id : String)
  /-- A `StopActor` gets `Terminated` and completes its promise. -/
  | stopActorTerminated (k : ℕ)

namespace State

/-- The child `id` in phase `running` goes to `stopping`. -/
def stopSelf (s : State) (id : String) (a : DeploymentActor) : State :=
  { s with deploymentActors := s.deploymentActors.insert id { a with phase := .stopping } }

def step (s : State) : Event → Option State
  | .startDeployment plan force =>
    if plan.id ∈ s.seen then none
    else some (s.start plan force)
  | .cancelDeployment plan => s.cancelDeployment plan.id
  | .deliver k => do
    let m ← s.mailbox[k]?
    { s with mailbox := s.mailbox.eraseIdx k }.receive m
  | .completeOp k ok => do
    let (op, action) ← s.pendingOps[k]?
    if (s.pendingOps.take k).any fun earlier => earlier.2.key = action.key then none
    else return { s with
      pendingOps := s.pendingOps.eraseIdx k
      opResults := s.opResults.insert op ok
      repository := if ok then applyOp s.repository action else s.repository }
  | .resume k => do
    let a ← s.asyncs[k]?
    let (replies, m) ← s.continueAsync a
    return { s with
      asyncs := s.asyncs.eraseIdx k
      replies := s.replies ++ replies
      mailbox := s.mailbox ++ [m] }
  | .actorDone id result => do
    let a ← s.deploymentActors.lookup id
    if a.phase = .running then
      return (s.stopSelf id a).send (.deploymentFinished a.plan result)
    else none
  | .actorCancelled id => do
    let a ← s.deploymentActors.lookup id
    if a.phase = .running ∧ a.cancelRequested then
      return (s.stopSelf id a).send (.deploymentFinished a.plan .deploymentCanceled)
    else none
  | .actorCrashed id => do
    let a ← s.deploymentActors.lookup id
    if a.phase = .running then return s.stopSelf id a else none
  | .actorTerminated id => do
    let a ← s.deploymentActors.lookup id
    if a.phase = .stopping then
      return { s with
        deploymentActors := s.deploymentActors.insert id { a with phase := .terminated } }
    else none
  | .stopActorTerminated k => do
    let stop ← s.stopActors[k]?
    let a ← s.deploymentActors.lookup stop.toStop
    if a.phase = .terminated then
      return { s with stopActors := s.stopActors.set k { stop with promiseDone := true } }
    else none

/-- A manager that has just been started as leader, with what the previous
leader left in the repository. -/
def initial (repository : Dict String Plan) : State where
  runningDeployments := ∅
  runningDeploymentsMetric := 0
  totalDeploymentsMetric := 0
  promises := []
  mailbox := []
  asyncs := []
  repository := repository
  pendingOps := []
  opResults := ∅
  nextOp := 0
  deploymentActors := ∅
  stopActors := []
  replies := []
  seen := ∅

end State

/-- The deployment manager as a machine. -/
def manager : Machine State Event where
  Init s := ∃ repository, s = State.initial repository
  step := State.step

end Marathon.Deployment
