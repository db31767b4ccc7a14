import Marathon.State.RunSpec

/-!
# Apps and pods

The definitions of run specs and the comparisons by which an update is told to be
an upgrade, a scaling or nothing at all. The two `isUpgrade` are lists of fields kept
by hand: they are written out as the source has them.
-/

namespace Marathon

structure AppDefinition where
  id : AbsolutePathId
  cmd : Option String
  args : List String
  user : Option String
  env : FMap String EnvVarValue
  instances : ℤ
  resources : Resources
  executor : String
  executorResources : Option Resources
  constraints : Finset Constraint
  fetch : List FetchUri
  portDefinitions : List PortDefinition
  requirePorts : Bool
  backoffStrategy : BackoffStrategy
  container : Option Container
  healthChecks : Finset HealthCheck
  check : Option Check
  readinessChecks : List ReadinessCheck
  taskKillGracePeriod : Option FiniteDuration
  dependencies : Finset AbsolutePathId
  upgradeStrategy : UpgradeStrategy
  labels : FMap String String
  acceptedResourceRoles : Finset String
  networks : List Network
  versionInfo : VersionInfo
  secrets : FMap String Secret
  unreachableStrategy : UnreachableStrategy
  killSelection : KillSelection
  tty : Option Bool
  role : Role
  resourceLimits : Option ResourceLimits
deriving DecidableEq

namespace AppDefinition

/-- The definition up to its version info and its number of instances. -/
def runtime (app : AppDefinition) : AppDefinition :=
  { app with versionInfo := .noVersion, instances := 0 }

def version (app : AppDefinition) : Timestamp := app.versionInfo.version

def portNumbers (app : AppDefinition) : List ℤ :=
  app.portDefinitions.map PortDefinition.port

def isUpgrade (app target : AppDefinition) : Bool :=
  app.id == target.id && (
    app.cmd != target.cmd ||
    app.args != target.args ||
    app.user != target.user ||
    app.env != target.env ||
    app.resources != target.resources ||
    app.executor != target.executor ||
    app.constraints != target.constraints ||
    app.fetch != target.fetch ||
    app.portDefinitions != target.portDefinitions ||
    app.requirePorts != target.requirePorts ||
    app.backoffStrategy != target.backoffStrategy ||
    app.container != target.container ||
    app.healthChecks != target.healthChecks ||
    app.check != target.check ||
    app.taskKillGracePeriod != target.taskKillGracePeriod ||
    app.dependencies != target.dependencies ||
    app.upgradeStrategy != target.upgradeStrategy ||
    app.labels != target.labels ||
    app.acceptedResourceRoles != target.acceptedResourceRoles ||
    app.networks != target.networks ||
    app.readinessChecks != target.readinessChecks ||
    app.secrets != target.secrets ||
    app.unreachableStrategy != target.unreachableStrategy ||
    app.killSelection != target.killSelection ||
    app.tty != target.tty ||
    app.role != target.role ||
    app.resourceLimits != target.resourceLimits)

def isOnlyScaleChange (app target : AppDefinition) : Bool :=
  !app.isUpgrade target && app.instances != target.instances

def needsRestart (app target : AppDefinition) : Bool :=
  app.versionInfo != target.versionInfo || app.isUpgrade target

/-- An update of an app that is no upgrade changes the executor resources at most. -/
theorem isUpgrade_eq_false_iff {app target : AppDefinition} (hid : app.id = target.id) :
    app.isUpgrade target = false ↔
      { app.runtime with executorResources := target.executorResources } = target.runtime := by
  rw [isUpgrade, hid]
  simp only [beq_self_eq_true, Bool.true_and, Bool.or_eq_false_iff, bne_eq_false_iff_eq, runtime,
    mk.injEq, hid, true_and, and_assoc]
  tauto

theorem isUpgrade_of_runtime_eq {app target : AppDefinition} (h : app.runtime = target.runtime) :
    app.isUpgrade target = false := by
  simp only [runtime, mk.injEq] at h
  simp [isUpgrade, h]

end AppDefinition

structure PodDefinition where
  id : AbsolutePathId
  user : Option String
  env : FMap String EnvVarValue
  labels : FMap String String
  acceptedResourceRoles : Finset String
  secrets : FMap String Secret
  containers : List MesosContainer
  instances : ℤ
  constraints : Finset Constraint
  versionInfo : VersionInfo
  networks : List Network
  backoffStrategy : BackoffStrategy
  upgradeStrategy : UpgradeStrategy
  executorResources : Resources
  linuxInfo : Option LinuxInfo
  volumes : List Volume
  unreachableStrategy : UnreachableStrategy
  killSelection : KillSelection
  role : Role
  legacySharedCgroups : Option Bool
deriving DecidableEq

namespace PodDefinition

/-- The definition up to its version info and its number of instances. -/
def runtime (pod : PodDefinition) : PodDefinition :=
  { pod with versionInfo := .noVersion, instances := 0 }

def version (pod : PodDefinition) : Timestamp := pod.versionInfo.version

def isUpgrade (pod target : PodDefinition) : Bool :=
  pod.id == target.id && (
    pod.user != target.user ||
    pod.env != target.env ||
    pod.labels != target.labels ||
    pod.acceptedResourceRoles != target.acceptedResourceRoles ||
    pod.secrets != target.secrets ||
    pod.containers != target.containers ||
    pod.constraints != target.constraints ||
    pod.volumes != target.volumes ||
    pod.networks != target.networks ||
    pod.backoffStrategy != target.backoffStrategy ||
    pod.upgradeStrategy != target.upgradeStrategy ||
    pod.role != target.role ||
    pod.linuxInfo != target.linuxInfo)

def needsRestart (pod target : PodDefinition) : Bool :=
  pod.version != target.version || pod.isUpgrade target

def isOnlyScaleChange (pod target : PodDefinition) : Bool :=
  !pod.isUpgrade target && pod.instances != target.instances

/-- An update of a pod that is no upgrade changes at most the four fields that are not
compared. -/
theorem isUpgrade_eq_false_iff {pod target : PodDefinition} (hid : pod.id = target.id) :
    pod.isUpgrade target = false ↔
      { pod.runtime with
        executorResources := target.executorResources
        unreachableStrategy := target.unreachableStrategy
        killSelection := target.killSelection
        legacySharedCgroups := target.legacySharedCgroups } = target.runtime := by
  rw [isUpgrade, hid]
  simp only [beq_self_eq_true, Bool.true_and, Bool.or_eq_false_iff, bne_eq_false_iff_eq, runtime,
    mk.injEq, hid, true_and, and_assoc]
  tauto

theorem isUpgrade_of_runtime_eq {pod target : PodDefinition} (h : pod.runtime = target.runtime) :
    pod.isUpgrade target = false := by
  simp only [runtime, mk.injEq] at h
  simp [isUpgrade, h]

end PodDefinition

/-- What instances are launched of. -/
inductive RunSpec
  | app (definition : AppDefinition)
  | pod (definition : PodDefinition)
deriving DecidableEq

structure RunSpecConfigRef where
  id : AbsolutePathId
  configVersion : Timestamp
deriving DecidableEq

structure IllegalStateException where
  message : String
deriving DecidableEq

namespace RunSpec

def id : RunSpec → AbsolutePathId
  | app definition => definition.id
  | pod definition => definition.id

def version : RunSpec → Timestamp
  | app definition => definition.version
  | pod definition => definition.version

def versionInfo : RunSpec → VersionInfo
  | app definition => definition.versionInfo
  | pod definition => definition.versionInfo

def instances : RunSpec → ℤ
  | app definition => definition.instances
  | pod definition => definition.instances

def isScaledToZero (runSpec : RunSpec) : Bool := runSpec.instances == 0

def unreachableStrategy : RunSpec → UnreachableStrategy
  | app definition => definition.unreachableStrategy
  | pod definition => definition.unreachableStrategy

def role : RunSpec → Role
  | app definition => definition.role
  | pod definition => definition.role

def constraints : RunSpec → Finset Constraint
  | app definition => definition.constraints
  | pod definition => definition.constraints

/-- The config of a run spec, which changes with everything but its number of instances. -/
def configRef (runSpec : RunSpec) : RunSpecConfigRef :=
  ⟨runSpec.id, runSpec.versionInfo.lastConfigChangeVersion⟩

def upgradeStrategy : RunSpec → UpgradeStrategy
  | app definition => definition.upgradeStrategy
  | pod definition => definition.upgradeStrategy

def backoffStrategy : RunSpec → BackoffStrategy
  | app definition => definition.backoffStrategy
  | pod definition => definition.backoffStrategy

def volumes : RunSpec → List Volume
  | app definition =>
    match definition.container with
    | none => []
    | some (.mesos volumes ..) | some (.docker volumes ..) | some (.mesosDocker volumes ..) =>
      volumes.map VolumeWithMount.volume
  | pod definition => definition.volumes

/-- It has persistent volumes. -/
def isResident (runSpec : RunSpec) : Bool := runSpec.volumes.any Volume.isPersistent

def isApp : RunSpec → Bool
  | app _ => true
  | pod _ => false

def runtime : RunSpec → RunSpec
  | app definition => app definition.runtime
  | pod definition => pod definition.runtime

/-! An app is compared with apps only, and a pod with pods. -/

def isUpgrade : RunSpec → RunSpec → Except IllegalStateException Bool
  | app definition, app target => .ok (definition.isUpgrade target)
  | pod definition, pod target => .ok (definition.isUpgrade target)
  | app _, pod _ => .error ⟨"Can't change app to pod"⟩
  | pod _, app _ => .error ⟨"Can't change pod to app"⟩

def isOnlyScaleChange : RunSpec → RunSpec → Except IllegalStateException Bool
  | app definition, app target => .ok (definition.isOnlyScaleChange target)
  | pod definition, pod target => .ok (definition.isOnlyScaleChange target)
  | app _, pod _ => .error ⟨"Can't change app to pod"⟩
  | pod _, app _ => .error ⟨"Can't change pod to app"⟩

def needsRestart : RunSpec → RunSpec → Except IllegalStateException Bool
  | app definition, app target => .ok (definition.needsRestart target)
  | pod definition, pod target => .ok (definition.needsRestart target)
  | app definition, pod target =>
    if definition.versionInfo != target.versionInfo then .ok true
    else .error ⟨"Can't change app to pod"⟩
  | pod definition, app target =>
    if definition.version != target.version then .ok true
    else .error ⟨"Can't change pod to app"⟩

/-- The versions that `needsRestart` compares: of an app the whole version info, of a pod
the version alone. -/
def versionDiffers : RunSpec → RunSpec → Bool
  | app definition, app target => definition.versionInfo != target.versionInfo
  | runSpec, target => runSpec.version != target.version

theorem isOnlyScaleChange_eq {runSpec target : RunSpec} {upgrade : Bool}
    (h : runSpec.isUpgrade target = .ok upgrade) :
    runSpec.isOnlyScaleChange target = .ok (!upgrade && runSpec.instances != target.instances) := by
  cases runSpec <;> cases target <;> cases h <;> rfl

theorem needsRestart_eq {runSpec target : RunSpec} {upgrade : Bool}
    (h : runSpec.isUpgrade target = .ok upgrade) :
    runSpec.needsRestart target = .ok (runSpec.versionDiffers target || upgrade) := by
  cases runSpec <;> cases target <;> cases h <;> rfl

theorem exists_isUpgrade {runSpec target : RunSpec} (h : runSpec.isApp = target.isApp) :
    ∃ upgrade, runSpec.isUpgrade target = .ok upgrade := by
  cases runSpec <;> cases target <;> cases h <;> exact ⟨_, rfl⟩

theorem isUpgrade_of_runtime_eq {runSpec target : RunSpec} (h : runSpec.runtime = target.runtime) :
    runSpec.isUpgrade target = .ok false := by
  cases runSpec with
  | app definition =>
    cases target with
    | app target =>
      exact congrArg Except.ok (AppDefinition.isUpgrade_of_runtime_eq (app.inj h))
    | pod target => cases h
  | pod definition =>
    cases target with
    | app target => cases h
    | pod target =>
      exact congrArg Except.ok (PodDefinition.isUpgrade_of_runtime_eq (pod.inj h))

end RunSpec

end Marathon
