import Marathon.Raml.CheckConversion
import Marathon.Raml.ContainerConversion
import Marathon.State.AppDefinition
import Marathon.State.CanonicalPath

/-!
# Conversions of apps

An app definition is written as an app of the API, an app is read as a definition, and an update is
merged with what is written of the current definition.
-/

namespace Marathon

open Lib

namespace Network

def hasBridgeNetworking (networks : List Network) : Bool :=
  networks.any fun
    | bridgeNetwork _ => true
    | _ => false

end Network

namespace AppDefinition

/-- What the constructor requires of networks and ports. -/
structure Required (app : AppDefinition) : Prop where
  networks : app.networks ≠ []
  portDefinitions : Network.hasNonHostNetworking app.networks = true → app.portDefinitions = []
  portMappings : .hostNetwork ∈ app.networks → ∀ c ∈ app.container, c.portMappings = []
  ports : app.portDefinitions = [] ∨ ∀ c ∈ app.container, c.portMappings = []
  hostPorts : Network.hasBridgeNetworking app.networks = true →
    ∀ c ∈ app.container, ∀ m ∈ c.portMappings, m.hostPort ≠ none

theorem required_iff {app : AppDefinition} : app.Required ↔ app.networks ≠ [] ∧
    (Network.hasNonHostNetworking app.networks = true → app.portDefinitions = []) ∧
    (.hostNetwork ∈ app.networks → ∀ c ∈ app.container, c.portMappings = []) ∧
    (app.portDefinitions = [] ∨ ∀ c ∈ app.container, c.portMappings = []) ∧
    (Network.hasBridgeNetworking app.networks = true →
      ∀ c ∈ app.container, ∀ m ∈ c.portMappings, m.hostPort ≠ none) :=
  ⟨fun ⟨h₁, h₂, h₃, h₄, h₅⟩ => ⟨h₁, h₂, h₃, h₄, h₅⟩, fun ⟨h₁, h₂, h₃, h₄, h₅⟩ => ⟨h₁, h₂, h₃, h₄, h₅⟩⟩

instance (app : AppDefinition) : Decidable app.Required :=
  decidable_of_iff' _ required_iff

theorem Required.portMappings_of_host {app : AppDefinition} (h : app.Required)
    (hhost : Network.hasNonHostNetworking app.networks = false) {c : Container}
    (hc : app.container = some c) : c.portMappings = [] := by
  obtain ⟨network, hmem⟩ := List.exists_mem_of_ne_nil _ h.networks
  have hall := List.any_eq_false.mp hhost network hmem
  rw [decide_eq_true_iff, not_not] at hall
  exact h.portMappings (hall ▸ hmem) c hc

end AppDefinition

namespace UpgradeStrategy

def empty : UpgradeStrategy := ⟨1, 1⟩

def forResidentTasks : UpgradeStrategy := ⟨1 / 2, 0⟩

end UpgradeStrategy

namespace Raml

def versionInfoWrites : Marathon.VersionInfo → Option VersionInfo
  | .fullVersionInfo _ scale config => some ⟨scale, config⟩
  | .onlyVersion _ => none
  | .noVersion => none

/-- What is written of the residency of an app with persistent volumes. -/
def residencyWrites : Marathon.UnreachableStrategy → AppResidency
  | .unreachableDisabled => {}
  | .unreachableEnabled inactiveAfter _ => {
      relaunchEscalationTimeoutSeconds := toSeconds inactiveAfter
      taskLostBehavior := .waitForever }

/-- Port definitions are written if the network is the host's. -/
def appPortDefinitionsWrites (nonHost : Bool) (ports : List Marathon.PortDefinition) :
    Option (Option (List PortDefinition)) :=
  if nonHost then some none else (ports.mapM portDefinitionWrites).map some

/-- `appWriter`. The deprecated fields of the API are not written. -/
def appWriter (app : AppDefinition) : Option App := do
  let nonHost := Network.hasNonHostNetworking app.networks
  let container ← app.container.mapM (appContainerWrites nonHost)
  let healthChecks ← setMapM appHealthCheckWrites app.healthChecks
  let check ← app.check.mapM checkRamlWriter
  let portDefinitions ← appPortDefinitionsWrites nonHost app.portDefinitions
  some {
    id := app.id.string
    acceptedResourceRoles :=
      if app.acceptedResourceRoles.Nonempty then some app.acceptedResourceRoles else none
    args := app.args
    backoffFactor := app.backoffStrategy.factor
    backoffSeconds := toInt (toSeconds app.backoffStrategy.backoff)
    cmd := app.cmd
    constraints := app.constraints.image constraintToSeqStringWrites
    container := container
    cpus := app.resources.cpus
    dependencies := app.dependencies.image AbsolutePathId.string
    disk := app.resources.disk
    env := mapValues envVarRamlWrites app.env
    executor := app.executor
    fetch := app.fetch.map artifactWrites
    gpus := app.resources.gpus
    healthChecks := healthChecks
    check := check
    instances := app.instances
    labels := app.labels
    maxLaunchDelaySeconds := toInt (toSeconds app.backoffStrategy.maxLaunchDelay)
    mem := app.resources.mem
    networks := app.networks.map networkRamlWriter
    portDefinitions := portDefinitions
    readinessChecks := app.readinessChecks.map readinessCheckWrites
    residency :=
      if (RunSpec.app app).isResident then some (residencyWrites app.unreachableStrategy) else none
    requirePorts := app.requirePorts
    secrets := mapValues podSecretWriter app.secrets
    taskKillGracePeriodSeconds := app.taskKillGracePeriod.map fun d => toInt (toSeconds d)
    upgradeStrategy := some (upgradeStrategyWrites app.upgradeStrategy)
    user := app.user
    version := some app.versionInfo.version
    versionInfo := versionInfoWrites app.versionInfo
    unreachableStrategy := some (ramlUnreachableStrategyWrite app.unreachableStrategy)
    killSelection := ramlKillSelectionWrite app.killSelection
    tty := app.tty
    executorResources := app.executorResources.map executorResourcesWrites
    role := some app.role
    resourceLimits := app.resourceLimits.map ramlResourceLimitsWrite }

def resources (cpus mem disk : Option ℚ) (gpus : Option ℤ) : Resources where
  cpus := cpus.getD App.defaultResources.cpus
  mem := mem.getD App.defaultResources.mem
  disk := disk.getD App.defaultResources.disk
  gpus := gpus.getD App.defaultResources.gpus

/-- `UpgradeStrategyConverter`. -/
def upgradeStrategyConverter (upgradeStrategy : Option Marathon.UpgradeStrategy)
    (hasPersistentVolumes hasExternalVolumes : Bool) : Marathon.UpgradeStrategy :=
  upgradeStrategy.getD <|
    if hasPersistentVolumes || hasExternalVolumes then .forResidentTasks else .empty

/-- `appRamlReader`, where `now` is the time of the conversion. The version info is ignored. -/
def appRamlReader (now : Timestamp) (app : App) : Option AppDefinition := do
  let role ← app.role
  let constraints ← setMapM appConstraintRamlReader app.constraints
  let container ← app.container.mapM appContainerRamlReader
  let healthChecks ← setMapM appHealthCheckRamlReader app.healthChecks
  let check ← app.check.mapM appCheckRamlReader
  let readinessChecks ← app.readinessChecks.mapM appReadinessRamlReader
  let networks ← app.networks.mapM networkRamlReader
  let resourceLimits ← app.resourceLimits.mapM ramlResourceLimitsRead
  let result : AppDefinition := {
    id := .ofText app.id
    cmd := app.cmd
    args := app.args
    user := app.user
    env := mapValues envVarReads app.env
    instances := app.instances
    resources := resources (some app.cpus) (some app.mem) (some app.disk) (some app.gpus)
    executor := app.executor
    constraints := constraints
    fetch := app.fetch.map fetchUriReader
    portDefinitions := (app.portDefinitions.map (List.map portDefinitionRamlReader)).getD []
    requirePorts := app.requirePorts
    backoffStrategy := {
      backoff := seconds app.backoffSeconds
      maxLaunchDelay := seconds app.maxLaunchDelaySeconds
      factor := app.backoffFactor }
    container := container
    healthChecks := healthChecks
    check := check
    readinessChecks := readinessChecks
    taskKillGracePeriod := app.taskKillGracePeriodSeconds.map seconds
    dependencies := app.dependencies.image AbsolutePathId.ofText
    upgradeStrategy := upgradeStrategyConverter
      (app.upgradeStrategy.map upgradeStrategyRamlReader)
      (app.container.any fun c => c.volumes.any AppVolume.isPersistent)
      (app.container.any fun c => c.volumes.any AppVolume.isExternal)
    labels := app.labels
    acceptedResourceRoles := app.acceptedResourceRoles.getD ∅
    networks := networks
    versionInfo := .onlyVersion (app.version.getD now)
    secrets := mapValues podSecretReader app.secrets
    unreachableStrategy := (app.unreachableStrategy.map ramlUnreachableStrategyRead).getD
      (.unreachableEnabled (seconds 0) (seconds 0))
    killSelection := ramlKillSelectionRead app.killSelection
    tty := app.tty
    executorResources := app.executorResources.map resourcesReads
    role := role
    resourceLimits := resourceLimits }
  if result.Required then some result else none

/-- `appUpdateRamlReader`: what the update sets, and the rest of what is written of the current
definition. -/
def appUpdateRamlReader (update : AppUpdate) (appDef : AppDefinition) : Option App :=
  (appWriter appDef).map fun app =>
    { app with
      cmd := update.cmd.or app.cmd
      args := update.args.getD app.args
      user := update.user.or app.user
      env := update.env.getD app.env
      instances := update.instances.getD app.instances
      cpus := update.cpus.getD app.cpus
      mem := update.mem.getD app.mem
      disk := update.disk.getD app.disk
      gpus := update.gpus.getD app.gpus
      executor := update.executor.getD app.executor
      constraints := update.constraints.getD app.constraints
      fetch := update.fetch.getD app.fetch
      portDefinitions := update.portDefinitions.or app.portDefinitions
      requirePorts := update.requirePorts.getD app.requirePorts
      backoffFactor := update.backoffFactor.getD app.backoffFactor
      backoffSeconds := update.backoffSeconds.getD app.backoffSeconds
      maxLaunchDelaySeconds := update.maxLaunchDelaySeconds.getD app.maxLaunchDelaySeconds
      container := update.container.or app.container
      healthChecks := update.healthChecks.getD app.healthChecks
      check := update.check.or app.check
      readinessChecks := update.readinessChecks.getD app.readinessChecks
      dependencies := update.dependencies.getD app.dependencies
      upgradeStrategy := update.upgradeStrategy.or app.upgradeStrategy
      labels := update.labels.getD app.labels
      acceptedResourceRoles := update.acceptedResourceRoles.or app.acceptedResourceRoles
      networks := update.networks.getD app.networks
      residency := update.residency.or app.residency
      secrets := update.secrets.getD app.secrets
      taskKillGracePeriodSeconds :=
        update.taskKillGracePeriodSeconds.or app.taskKillGracePeriodSeconds
      unreachableStrategy := update.unreachableStrategy.or app.unreachableStrategy
      killSelection := update.killSelection.getD app.killSelection
      tty := update.tty.or app.tty
      -- these two are not taken from the current definition
      executorResources := update.executorResources
      role := update.role.or app.role
      resourceLimits := update.resourceLimits }

end Raml

end Marathon
