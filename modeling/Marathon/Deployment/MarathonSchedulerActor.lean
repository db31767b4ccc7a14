import Marathon.Deployment.DeploymentManager

/-!
# The locks of the scheduler actor

`MarathonSchedulerActor` while it leads: it locks the run specs of every deployment attempt and of
every scale check. What it starts completes at some time, and the release of the locks is a message
that arrives after that, in no particular order.
-/

namespace Marathon.MarathonSchedulerActor

open Lib Deployment

/-! ## Locks -/

/-- About locks:
- a lock is acquired if deployment is started
- a lock is acquired if a scale operation is executed

A run spec has the version of whoever locked it last. -/
structure Locks where
  lockedRunSpecs : AbsolutePathId → Option ℕ
  currentLockVersion : ℕ

namespace Locks

def noConflictsWith (l : Locks) (runSpecIds : Finset AbsolutePathId) : Prop :=
  ∀ id ∈ runSpecIds, l.lockedRunSpecs id = none

instance (l : Locks) (runSpecIds : Finset AbsolutePathId) : Decidable (l.noConflictsWith runSpecIds) :=
  inferInstanceAs (Decidable (∀ id ∈ runSpecIds, l.lockedRunSpecs id = none))

def getNextLockVersion (l : Locks) : ℕ := l.currentLockVersion + 1

/-- The lock is raised in any case, also where there is one. -/
def addLocks (l : Locks) (runSpecIds : Finset AbsolutePathId) : Locks where
  lockedRunSpecs := fun id =>
    if id ∈ runSpecIds then some l.getNextLockVersion else l.lockedRunSpecs id
  currentLockVersion := l.getNextLockVersion

/-- Only remove if we are at the latest lock version. -/
def removeLocks (l : Locks) (runSpecIds : Finset AbsolutePathId) (lockVersion : ℕ) : Locks :=
  { l with lockedRunSpecs := fun id =>
      if id ∈ runSpecIds ∧ l.lockedRunSpecs id = some lockVersion then none
      else l.lockedRunSpecs id }

end Locks

/-! ## The actor and what it has started -/

/-- A call of `deploymentManager.start` that has not been completed. -/
structure Attempt where
  lockVersion : ℕ
  plan : Plan
  /-- The manager has accepted the deployment. -/
  accepted : Bool
deriving DecidableEq

/-- A call of `schedulerActions.scale` that has not been completed. -/
structure Scale where
  lockVersion : ℕ
  runSpecId : AbsolutePathId
deriving DecidableEq

structure RemoveLocks where
  runSpecIds : Finset AbsolutePathId
  lockVersion : ℕ
deriving DecidableEq

structure State where
  locks : Locks
  attempts : List Attempt
  scales : List Scale
  mailbox : List RemoveLocks

/-- With what `deploymentManager.start` is completed. -/
inductive StartResult
  | finished
  | lockConflict
  | canceled
deriving DecidableEq

/-- Only an accepted deployment can finish, and only one that is not can be rejected. -/
def StartResult.possible : StartResult → Bool → Bool
  | finished, accepted => accepted
  | lockConflict, accepted => !accepted
  | canceled, _ => true

inductive Event
  | scaleRunSpec (runSpecId : AbsolutePathId)
  | deploy (plan : Plan) (force : Bool)
  /-- The release at this position is handled. -/
  | removeLocks (position : ℕ)
  | accepted (lockVersion : ℕ)
  | startCompleted (lockVersion : ℕ) (result : StartResult)
  | scaleCompleted (lockVersion : ℕ)

/-- A scale check is not user initiated: it is dropped when the run spec is locked. -/
def scaleRunSpec (s : State) (runSpecId : AbsolutePathId) : State :=
  if s.locks.noConflictsWith {runSpecId} then
    { s with
      locks := s.locks.addLocks {runSpecId}
      scales := ⟨s.locks.getNextLockVersion, runSpecId⟩ :: s.scales }
  else s

/-- We raise the lock in any case for a deployment attempt, forced or not. -/
def deploy (s : State) (plan : Plan) : State :=
  { s with
    locks := s.locks.addLocks plan.affectedRunSpecIds
    attempts := ⟨s.locks.getNextLockVersion, plan, false⟩ :: s.attempts }

def accept (s : State) (lockVersion : ℕ) : State :=
  { s with attempts := s.attempts.map fun a =>
      if a.lockVersion = lockVersion then { a with accepted := true } else a }

/-- We lower the lock again, whatever the result. -/
def completeStart (s : State) (a : Attempt) : State :=
  { s with
    attempts := s.attempts.erase a
    mailbox := s.mailbox ++ [⟨a.plan.affectedRunSpecIds, a.lockVersion⟩] }

/-- Always release the lock. -/
def completeScale (s : State) (o : Scale) : State :=
  { s with
    scales := s.scales.erase o
    mailbox := s.mailbox ++ [⟨{o.runSpecId}, o.lockVersion⟩] }

def step (s : State) : Event → Option State
  | .scaleRunSpec runSpecId => some (scaleRunSpec s runSpecId)
  | .deploy plan _ => some (deploy s plan)
  | .removeLocks position => s.mailbox[position]?.map fun m =>
      { s with
        locks := s.locks.removeLocks m.runSpecIds m.lockVersion
        mailbox := s.mailbox.eraseIdx position }
  | .accepted lockVersion =>
    if s.attempts.any (·.lockVersion = lockVersion) then some (accept s lockVersion) else none
  | .startCompleted lockVersion result =>
    (s.attempts.find? fun a => a.lockVersion = lockVersion && result.possible a.accepted).map
      (completeStart s)
  | .scaleCompleted lockVersion =>
    (s.scales.find? (·.lockVersion = lockVersion)).map (completeScale s)

/-- The actor has just become leader. Releases of an earlier leadership may still be on their way. -/
def schedulerActor : Machine State Event where
  Init s := (∀ id, s.locks.lockedRunSpecs id = none) ∧ s.attempts = [] ∧ s.scales = [] ∧
    ∀ m ∈ s.mailbox, m.lockVersion ≤ s.locks.currentLockVersion
  step := step

end Marathon.MarathonSchedulerActor
