import Mathlib.Data.Rat.Floor
import Marathon.Instance.Instance
import Marathon.Lib.Machine

/-!
# The task replace actor

The actor replaces the instances of a run spec by instances of its new version. It loads the
instances, kills as many old ones as the restart strategy allows and queues new ones; then it
goes by what it hears of the instances, and counts. A life of the actor ends when it stops or
throws; after it has thrown it is started anew, with nothing but the instances it loads.
-/

namespace Marathon.Deployment

open Lib

/-- The conditions in which an instance is taken to be gone. -/
def considerTerminal : Condition → Bool
  | .unreachable | .unreachableInactive => true
  | .error | .failed | .killed | .finished | .unknown | .gone | .dropped => true
  | _ => false

namespace TaskReplaceActor

/-! ## The restart strategy -/

structure RestartStrategy where
  nrToKillImmediately : ℤ
  maxCapacity : ℤ
deriving DecidableEq

/-- `Double.toInt` of a rational: what comes after the point is cut off. -/
def toInt (q : ℚ) : ℤ := if 0 ≤ q then ⌊q⌋ else ⌈q⌉

def minHealthy (runSpec : RunSpec) : ℤ :=
  toInt ⌈(runSpec.instances : ℚ) * runSpec.upgradeStrategy.minimumHealthCapacity⌉

/-- The capacity before it is raised for the sake of the restart. -/
def plainCapacity (runSpec : RunSpec) : ℤ :=
  toInt (runSpec.instances * (1 + runSpec.upgradeStrategy.maximumOverCapacity))

/-- Old and new instances that have the goal to be running and are considered healthy. -/
def runningHealthy (instances : List Instance) : List Instance :=
  instances.filter fun i => i.state.goal = .running && i.consideredHealthy

/-- There are as many healthy instances as there must and as there may be. -/
def isTight (runSpec : RunSpec) (currentInstances : List Instance) : Bool :=
  minHealthy runSpec = plainCapacity runSpec &&
    plainCapacity runSpec ≤ (runningHealthy currentInstances).length

def computeMaxCapacity (runSpec : RunSpec) (currentInstances : List Instance) : ℤ :=
  if isTight runSpec currentInstances && !runSpec.isResident then plainCapacity runSpec + 1
  else plainCapacity runSpec

def computeNrToKill (runSpec : RunSpec) (currentInstances : List Instance) : ℤ :=
  let healthy : ℤ := (runningHealthy currentInstances).length
  let nrToKill :=
    if isTight runSpec currentInstances && runSpec.isResident then
      healthy - minHealthy runSpec + 1
    else max 0 (healthy - minHealthy runSpec)
  -- extra instances of a previous deployment that was overtaken
  if runSpec.instances < (currentInstances.length : ℤ) then
    max (currentInstances.length - runSpec.instances) nrToKill
  else nrToKill

def computeRestartStrategy (runSpec : RunSpec) (currentInstances : List Instance) :
    Except (Thrown × String) RestartStrategy :=
  let healthy : ℤ := (runningHealthy currentInstances).length
  let maxCapacity := computeMaxCapacity runSpec currentInstances
  let nrToKillImmediately := computeNrToKill runSpec currentInstances
  if ¬0 < runSpec.instances then
    .error (.illegalArgument, "requirement failed: instances must be > 0 but is " ++
      toString runSpec.instances)
  else if ¬0 ≤ nrToKillImmediately then
    .error (.assertionError, "assumption failed: nrToKillImmediately must be >=0 but is " ++
      toString nrToKillImmediately)
  else if ¬0 < maxCapacity then
    .error (.assertionError, "assumption failed: maxCapacity must be >0 but is " ++
      toString maxCapacity)
  else if ¬(minHealthy runSpec < maxCapacity ∨ healthy - nrToKillImmediately < maxCapacity) then
    .error (.assertionError, "assumption failed: must be able to start new instances")
  else .ok ⟨nrToKillImmediately, maxCapacity⟩

theorem computeRestartStrategy_eq_ok {runSpec : RunSpec} {currentInstances : List Instance}
    {strategy : RestartStrategy}
    (h : computeRestartStrategy runSpec currentInstances = .ok strategy) :
    0 < runSpec.instances ∧ 0 ≤ strategy.nrToKillImmediately ∧
      strategy.nrToKillImmediately = computeNrToKill runSpec currentInstances ∧
        strategy.maxCapacity = computeMaxCapacity runSpec currentInstances := by
  unfold computeRestartStrategy at h
  dsimp only at h
  split_ifs at h with hinstances hkill hcapacity hstart
  cases h
  exact ⟨hinstances, hkill, rfl, rfl⟩

theorem toInt_intCast (n : ℤ) : toInt n = n := by
  unfold toInt
  split_ifs
  · exact Int.floor_intCast n
  · exact Int.ceil_intCast n

theorem minHealthy_eq (runSpec : RunSpec) :
    minHealthy runSpec = ⌈(runSpec.instances : ℚ) * runSpec.upgradeStrategy.minimumHealthCapacity⌉ :=
  toInt_intCast _

theorem isTight_iff {runSpec : RunSpec} {currentInstances : List Instance} :
    isTight runSpec currentInstances = true ↔ minHealthy runSpec = plainCapacity runSpec ∧
      plainCapacity runSpec ≤ (runningHealthy currentInstances).length := by
  rw [isTight, Bool.and_eq_true, decide_eq_true_eq, decide_eq_true_eq]

theorem zero_le_computeNrToKill (runSpec : RunSpec) (currentInstances : List Instance) :
    0 ≤ computeNrToKill runSpec currentInstances := by
  unfold computeNrToKill
  dsimp only
  split_ifs with hextra htight htight
  · omega
  · omega
  · have hle := (isTight_iff.mp (Bool.and_eq_true_iff.mp htight).1)
    omega
  · omega

/-- An upgrade strategy that passes its validation. -/
def ValidUpgradeStrategy (strategy : UpgradeStrategy) : Prop :=
  0 ≤ strategy.minimumHealthCapacity ∧ strategy.minimumHealthCapacity ≤ 1 ∧
    0 ≤ strategy.maximumOverCapacity ∧ strategy.maximumOverCapacity ≤ 1

section Valid

variable {runSpec : RunSpec} (hinstances : 0 < runSpec.instances)
  (hvalid : ValidUpgradeStrategy runSpec.upgradeStrategy)

include hinstances hvalid

theorem minHealthy_le : minHealthy runSpec ≤ runSpec.instances := by
  rw [minHealthy_eq]
  have hpos : (0 : ℚ) ≤ runSpec.instances := by exact_mod_cast hinstances.le
  apply Int.ceil_le.mpr
  exact mul_le_of_le_one_right hpos hvalid.2.1

theorem le_plainCapacity : runSpec.instances ≤ plainCapacity runSpec := by
  have hpos : (0 : ℚ) ≤ runSpec.instances := by exact_mod_cast hinstances.le
  have hle : (runSpec.instances : ℚ) ≤
      runSpec.instances * (1 + runSpec.upgradeStrategy.maximumOverCapacity) :=
    le_mul_of_one_le_right hpos (le_add_of_nonneg_right hvalid.2.2.1)
  rw [plainCapacity, toInt, if_pos (hpos.trans hle)]
  exact Int.le_floor.mpr hle

/-- None of the assumptions fails. -/
theorem exists_computeRestartStrategy (currentInstances : List Instance) :
    ∃ strategy, computeRestartStrategy runSpec currentInstances = .ok strategy := by
  have hmin := minHealthy_le hinstances hvalid
  have hplain := le_plainCapacity hinstances hvalid
  have hkill := zero_le_computeNrToKill runSpec currentInstances
  have hcapacity : plainCapacity runSpec ≤ computeMaxCapacity runSpec currentInstances := by
    unfold computeMaxCapacity
    split_ifs <;> omega
  have hstart : minHealthy runSpec < computeMaxCapacity runSpec currentInstances ∨
      (runningHealthy currentInstances).length - computeNrToKill runSpec currentInstances <
        computeMaxCapacity runSpec currentInstances := by
    cases htight : isTight runSpec currentInstances with
    | false =>
      rw [← Bool.not_eq_true, isTight_iff] at htight
      omega
    | true =>
      cases hresident : runSpec.isResident with
      | false =>
        left
        simp only [computeMaxCapacity, htight, hresident]
        simp only [Bool.not_false, Bool.and_self, if_true]
        omega
      | true =>
        -- one more than the surplus is killed
        right
        have hkills : (runningHealthy currentInstances).length - minHealthy runSpec + 1 ≤
            computeNrToKill runSpec currentInstances := by
          simp only [computeNrToKill, htight, hresident, Bool.and_self, if_true]
          split_ifs <;> omega
        omega
  refine ⟨⟨computeNrToKill runSpec currentInstances, computeMaxCapacity runSpec currentInstances⟩, ?_⟩
  unfold computeRestartStrategy
  rw [if_neg (not_not.mpr hinstances), if_neg (not_not.mpr hkill), if_neg (by omega),
    if_neg (not_not.mpr hstart)]

end Valid

/-! ## The loaded state -/

/-- Instances of another version than the run spec that have the goal to be running. -/
def oldActiveInstances (runSpec : RunSpec) (specInstances : List Instance) : List Instance :=
  (specInstances.filter fun i => i.runSpecVersion ≠ runSpec.version).filter
    fun i => i.state.goal = .running

/-- What the actor has loaded. The order among the healthy instances is the sort's: the
comparison it is given is none there, but puts the unhealthy ones first. -/
structure State (runSpec : RunSpec) where
  specInstances : List Instance
  ignitionStrategy : RestartStrategy
  toKillOrdered : List Instance
  distinct : (specInstances.map Instance.instanceId).Nodup
  computed : computeRestartStrategy runSpec specInstances = .ok ignitionStrategy
  perm : toKillOrdered.Perm (oldActiveInstances runSpec specInstances)
  ordered : toKillOrdered.Pairwise fun i j => i.consideredHealthy → j.consideredHealthy

/-- The instances of the new version that a former life, or another deployment, has started. -/
def State.instancesAlreadyStarted {runSpec : RunSpec} (state : State runSpec) : List Instance :=
  state.specInstances.filter fun i => i.runSpecVersion = runSpec.version

/-! ## Messages -/

structure InstanceChanged where
  id : InstanceId
  runSpecVersion : Timestamp
  runSpecId : AbsolutePathId
  condition : Condition
  changed : Instance

structure InstanceHealthChanged where
  id : InstanceId
  runSpecVersion : Timestamp
  runSpecId : AbsolutePathId
  healthy : Option Bool

inductive Message (runSpec : RunSpec)
  | loaded (state : State runSpec)
  | done
  | failure
  | checkFinished
  | instanceChanged (event : InstanceChanged)
  | instanceHealthChanged (event : InstanceHealthChanged)
  | readinessCheckStreamDone
  | readinessCheckResult (taskId : TaskId) (ready : Bool)

inductive Behavior
  | initializing
  | initialized
  | stopped
  | thrown
deriving DecidableEq

end TaskReplaceActor

open TaskReplaceActor

/-- The actor's variables, and what it has asked for: the goals it has set and how many
instances it has queued each time. `state` is missing until it is loaded; `stash` is what it
keeps for later, `unstashed` what it is to handle before its mailbox. -/
structure TaskReplaceActor (runSpec : RunSpec) where
  behavior : Behavior
  state : Option (TaskReplaceActor.State runSpec)
  oldActiveInstanceIds : Finset InstanceId
  toKill : List InstanceId
  instancesStarted : ℤ
  healthy : Finset InstanceId
  ready : Finset InstanceId
  stash : List (Message runSpec)
  unstashed : List (Message runSpec)
  goals : List (InstanceId × Goal)
  queued : List ℤ

namespace TaskReplaceActor

variable {runSpec : RunSpec}

def hasHealthChecks : RunSpec → Bool
  | .app app => 0 < app.healthChecks.card
  | .pod pod => pod.containers.any fun container => container.healthCheck.isSome

def hasReadinessChecks : RunSpec → Bool
  | .app app => !app.readinessChecks.isEmpty
  | .pod _ => false

/-- The actor when it is started. -/
def preStart (runSpec : RunSpec) : TaskReplaceActor runSpec where
  behavior := .initializing
  state := none
  oldActiveInstanceIds := ∅
  toKill := []
  instancesStarted := 0
  healthy := ∅
  ready := ∅
  stash := []
  unstashed := []
  goals := []
  queued := []

/-! ## What the handlers do -/

/-- The goal of an instance that is replaced. -/
def killGoal (runSpec : RunSpec) : Goal := if runSpec.isResident then .stopped else .decommissioned

def killNextOldInstance (a : TaskReplaceActor runSpec) : TaskReplaceActor runSpec :=
  match a.toKill with
  | [] => a
  | dequeued :: toKill =>
    { a with toKill := toKill, goals := a.goals ++ [(dequeued, killGoal runSpec)] }

def killOldInstances (a : TaskReplaceActor runSpec) : ℕ → TaskReplaceActor runSpec
  | 0 => a
  | n + 1 => a.killNextOldInstance.killOldInstances n

def maxCapacity (a : TaskReplaceActor runSpec) : ℤ :=
  match a.state with
  | some state => state.ignitionStrategy.maxCapacity
  | none => plainCapacity runSpec

def instancesToStartNow (a : TaskReplaceActor runSpec) : ℤ :=
  let leftCapacity := max 0 (a.maxCapacity - a.oldActiveInstanceIds.card - a.instancesStarted)
  let instancesNotStartedYet := max 0 (runSpec.instances - a.instancesStarted)
  min instancesNotStartedYet leftCapacity

def launchInstances (a : TaskReplaceActor runSpec) : TaskReplaceActor runSpec :=
  if 0 < a.instancesToStartNow then
    { a with
      instancesStarted := a.instancesStarted + a.instancesToStartNow
      queued := a.queued ++ [a.instancesToStartNow] }
  else a

def checkFinished (a : TaskReplaceActor runSpec) : TaskReplaceActor runSpec :=
  if (a.healthy.card : ℤ) = runSpec.instances ∧ (a.ready.card : ℤ) = runSpec.instances ∧
      a.oldActiveInstanceIds = ∅ then
    { a with behavior := .stopped }
  else a

def instanceConditionChanged (a : TaskReplaceActor runSpec) (id : InstanceId) :
    TaskReplaceActor runSpec :=
  if id ∈ a.healthy ∧ id ∈ a.ready then a.killNextOldInstance.checkFinished else a.checkFinished

def instanceTerminated (a : TaskReplaceActor runSpec) (id : InstanceId) : TaskReplaceActor runSpec :=
  { a with healthy := a.healthy.erase id, ready := a.ready.erase id }

def reconcileHealthAndReadinessCheck (a : TaskReplaceActor runSpec) (i : Instance) :
    TaskReplaceActor runSpec :=
  { a with
    healthy :=
      if hasHealthChecks runSpec && !i.state.healthy.getD false then a.healthy
      else insert i.instanceId a.healthy
    ready := if hasReadinessChecks runSpec then a.ready else insert i.instanceId a.ready }

def reconcileAlreadyStartedInstances (a : TaskReplaceActor runSpec) (state : State runSpec) :
    TaskReplaceActor runSpec :=
  state.instancesAlreadyStarted.foldl reconcileHealthAndReadinessCheck a

def setState (a : TaskReplaceActor runSpec) (state : State runSpec) : TaskReplaceActor runSpec :=
  { a with
    state := some state
    oldActiveInstanceIds :=
      ((oldActiveInstances runSpec state.specInstances).map Instance.instanceId).toFinset
    toKill := state.toKillOrdered.map Instance.instanceId
    instancesStarted := state.instancesAlreadyStarted.length }

/-! ## Behaviors -/

def initializing (a : TaskReplaceActor runSpec) : Message runSpec → TaskReplaceActor runSpec
  | .loaded state =>
    let a := (a.setState state).reconcileAlreadyStartedInstances state
    let a := a.killOldInstances state.ignitionStrategy.nrToKillImmediately.toNat
    a.launchInstances.checkFinished
  | .done => { a with behavior := .initialized, stash := [], unstashed := a.stash ++ a.unstashed }
  | .failure => { a with behavior := .thrown }
  | stashMe => { a with stash := a.stash ++ [stashMe] }

/-- An event about a running instance of the new version. -/
def isRunningNew (runSpec : RunSpec) (event : InstanceChanged) : Bool :=
  event.runSpecVersion = runSpec.version && event.runSpecId = runSpec.id &&
    event.condition = .running

/-- Without health checks; the results of readiness checks are messages of their own. -/
def instanceRunBehavior (a : TaskReplaceActor runSpec) :
    Message runSpec → Option (TaskReplaceActor runSpec)
  | .instanceChanged event =>
    if isRunningNew runSpec event then
      let id := event.changed.instanceId
      if hasReadinessChecks runSpec then some { a with healthy := insert id a.healthy }
      else
        some ({ a with healthy := insert id a.healthy, ready := insert id a.ready
          }.instanceConditionChanged id)
    else none
  | _ => none

def instanceHealthBehavior (a : TaskReplaceActor runSpec) :
    Message runSpec → Option (TaskReplaceActor runSpec)
  | .instanceChanged event =>
    if hasReadinessChecks runSpec && isRunningNew runSpec event then some a else none
  | .instanceHealthChanged event =>
    if event.runSpecVersion = runSpec.version ∧ event.runSpecId = runSpec.id ∧
        event.healthy = some true ∧ event.id ∉ a.healthy then
      some ({ a with
        healthy := insert event.id a.healthy
        ready := if hasReadinessChecks runSpec then a.ready else insert event.id a.ready
          }.instanceConditionChanged event.id)
    else none
  | _ => none

def readinessCheckBehavior (a : TaskReplaceActor runSpec) :
    Message runSpec → Option (TaskReplaceActor runSpec)
  | .readinessCheckStreamDone => some a
  | .readinessCheckResult taskId ready =>
    if ready then
      some ({ a with ready := insert taskId.instanceId a.ready
        }.instanceConditionChanged taskId.instanceId)
    else some a
  | _ => none

def readinessBehavior (a : TaskReplaceActor runSpec) (message : Message runSpec) :
    Option (TaskReplaceActor runSpec) :=
  let startBehavior :=
    if hasHealthChecks runSpec then a.instanceHealthBehavior message
    else a.instanceRunBehavior message
  startBehavior <|>
    if hasReadinessChecks runSpec then a.readinessCheckBehavior message else none

def isOldInstance (runSpec : RunSpec) (i : Instance) : Bool := i.runSpecVersion ≠ runSpec.version

def newInstanceChanged (a : TaskReplaceActor runSpec) (event : InstanceChanged) :
    TaskReplaceActor runSpec :=
  let goal := event.changed.state.goal
  if considerTerminal event.condition && goal = .running then a.instanceTerminated event.id
  else if considerTerminal event.condition && goal.isTerminal then
    -- someone else has decommissioned the instance
    { a with instancesStarted := a.instancesStarted - 1 }
  else a

def oldInstanceChanged (a : TaskReplaceActor runSpec) (event : InstanceChanged) :
    TaskReplaceActor runSpec :=
  let goal := event.changed.state.goal
  let gone : TaskReplaceActor runSpec :=
    { a with oldActiveInstanceIds := a.oldActiveInstanceIds.erase event.id
      }.instanceTerminated event.id
  if considerTerminal event.condition && goal = .running then
    { gone with goals := gone.goals ++ [(event.changed.instanceId, killGoal runSpec)] }
  else if (considerTerminal event.condition || event.condition = .scheduled) && goal.isTerminal then
    gone.launchInstances
  else a

def replaceBehavior (a : TaskReplaceActor runSpec) : Message runSpec → TaskReplaceActor runSpec
  | .instanceChanged event =>
    if event.runSpecId ≠ runSpec.id then a
    else if event.changed.runSpecId ≠ runSpec.id then { a with behavior := .thrown }
    else if isOldInstance runSpec event.changed then a.oldInstanceChanged event
    else a.newInstanceChanged event
  | .failure => { a with behavior := .thrown }
  | .checkFinished => a.checkFinished
  | _ => a

def receive (a : TaskReplaceActor runSpec) (message : Message runSpec) : TaskReplaceActor runSpec :=
  match a.behavior with
  | .initializing => a.initializing message
  | .initialized => (a.readinessBehavior message).getD (a.replaceBehavior message)
  | .stopped | .thrown => a

/-! ## Runs -/

/-- A message comes from the mailbox, or from those that were unstashed. -/
inductive Event (runSpec : RunSpec)
  | received (message : Message runSpec)
  | unstashed

/-- The instances are loaded once, and nothing is done before. -/
def expects (a : TaskReplaceActor runSpec) : Message runSpec → Bool
  | .loaded _ => a.behavior = .initializing && a.state.isNone
  | .done | .checkFinished => a.state.isSome
  | _ => true

/-- The message that is handled next, and the actor without it. -/
def next (a : TaskReplaceActor runSpec) : Event runSpec →
    Option (Message runSpec × TaskReplaceActor runSpec)
  | .received message =>
    if a.unstashed.isEmpty && a.expects message then some (message, a) else none
  | .unstashed =>
    match a.unstashed with
    | [] => none
    | message :: rest => some (message, { a with unstashed := rest })

def step (a : TaskReplaceActor runSpec) (event : Event runSpec) :
    Option (TaskReplaceActor runSpec) :=
  if a.behavior = .initializing ∨ a.behavior = .initialized then
    (a.next event).map fun (message, a) => a.receive message
  else none

end TaskReplaceActor

end Marathon.Deployment
