import Marathon.State.RunSpec

/-!
# Apps of the API

The types that are generated for apps: every type of the API has its fields, where the optional
ones without a default are options. The update type of an app has options only.
-/

namespace Marathon

namespace Raml

inductive EnvVarValueOrSecret
  | envVarValue (value : String)
  | envVarSecret (secret : String)
deriving DecidableEq

structure SecretDef where
  source : String
deriving DecidableEq

structure UpgradeStrategy where
  maximumOverCapacity : ℚ
  minimumHealthCapacity : ℚ
deriving DecidableEq

inductive UnreachableStrategy
  | unreachableDisabled
  | unreachableEnabled (inactiveAfterSeconds expungeAfterSeconds : ℤ)
deriving DecidableEq

inductive KillSelection
  | youngestFirst
  | oldestFirst
deriving DecidableEq

structure VersionInfo where
  lastScalingAt : Timestamp
  lastConfigChangeAt : Timestamp
deriving DecidableEq

inductive TaskLostBehavior
  | waitForever
  | relaunchAfterTimeout
deriving DecidableEq

structure AppResidency where
  relaunchEscalationTimeoutSeconds : ℤ := 3600
  taskLostBehavior : TaskLostBehavior := .waitForever
deriving DecidableEq

structure ExecutorResources where
  cpus : ℚ
  mem : ℚ
  disk : ℚ
deriving DecidableEq

inductive ResourceLimit
  | unlimited (text : String)
  | number (value : ℚ)
deriving DecidableEq

structure ResourceLimits where
  cpus : Option ResourceLimit
  mem : Option ResourceLimit
deriving DecidableEq

/-! ## Networks and ports -/

inductive NetworkMode
  | container
  | containerBridge
  | host
deriving DecidableEq

structure Network where
  name : Option String
  mode : NetworkMode
  labels : FMap String String
deriving DecidableEq

inductive NetworkProtocol
  | tcp
  | udp
  | udpTcp
deriving DecidableEq

namespace NetworkProtocol

def value : NetworkProtocol → String
  | tcp => "tcp"
  | udp => "udp"
  | udpTcp => "udp,tcp"

def fromString (s : String) : Option NetworkProtocol :=
  [tcp, udp, udpTcp].find? fun protocol => protocol.value = s

end NetworkProtocol

structure PortDefinition where
  port : ℤ
  labels : FMap String String
  name : Option String
  protocol : NetworkProtocol
deriving DecidableEq

structure ContainerPortMapping where
  containerPort : ℤ
  hostPort : Option ℤ
  labels : FMap String String
  name : Option String
  protocol : NetworkProtocol
  servicePort : ℤ
  networkNames : List String
deriving DecidableEq

/-! ## Volumes -/

inductive ReadMode
  | ro
  | rw
deriving DecidableEq

inductive PersistentVolumeType
  | root
  | path
  | mount
deriving DecidableEq

structure PersistentVolumeInfo where
  type : Option PersistentVolumeType
  size : ℤ
  maxSize : Option ℤ
  profileName : Option String
  constraints : Finset (List String)
deriving DecidableEq

structure CSICapability where
  accessMode : String
  accessType : String
  fsType : Option String
  mountFlags : List String
deriving DecidableEq

structure CSIExternalVolumeInfoOptions where
  pluginName : String
  capability : CSICapability
  nodeStageSecret : FMap String String
  nodePublishSecret : FMap String String
  volumeContext : FMap String String
deriving DecidableEq

inductive ExternalVolumeInfo
  | dvdiExternalVolumeInfo (size : Option ℤ) (name provider : Option String)
      (options : FMap String String) (shared : Bool)
  | csiExternalVolumeInfo (name provider : String) (options : CSIExternalVolumeInfoOptions)
deriving DecidableEq

inductive AppVolume
  | appExternalVolume (containerPath : String) (external : ExternalVolumeInfo) (mode : ReadMode)
  | appPersistentVolume (containerPath : String) (persistent : PersistentVolumeInfo)
      (mode : ReadMode)
  | appHostVolume (containerPath hostPath : String) (mode : ReadMode)
  | appSecretVolume (containerPath secret : String)
deriving DecidableEq

def AppVolume.isPersistent : AppVolume → Bool
  | appPersistentVolume .. => true
  | _ => false

def AppVolume.isExternal : AppVolume → Bool
  | appExternalVolume .. => true
  | _ => false

/-! ## Containers -/

inductive EngineType
  | mesos
  | docker
deriving DecidableEq

structure DockerCredentials where
  principal : String
  secret : Option String
deriving DecidableEq

structure DockerPullConfig where
  secret : String
deriving DecidableEq

structure DockerParameter where
  key : String
  value : String
deriving DecidableEq

structure DockerContainer where
  credential : Option DockerCredentials := none
  pullConfig : Option DockerPullConfig := none
  forcePullImage : Bool := false
  image : String
  parameters : List DockerParameter := []
  privileged : Bool := false
deriving DecidableEq

structure Seccomp where
  profileName : Option String
  unconfined : Bool
deriving DecidableEq

inductive IPCMode
  | «private»
  | shareParent
deriving DecidableEq

structure IPCInfo where
  mode : IPCMode
  shmSize : Option ℤ
deriving DecidableEq

structure LinuxInfo where
  seccomp : Option Seccomp
  ipcInfo : Option IPCInfo
deriving DecidableEq

structure Container where
  type : EngineType
  docker : Option DockerContainer
  linuxInfo : Option LinuxInfo
  volumes : List AppVolume
  portMappings : Option (List ContainerPortMapping)
deriving DecidableEq

/-! ## Checks -/

inductive AppHealthCheckProtocol
  | http
  | https
  | tcp
  | command
  | mesosTcp
  | mesosHttp
  | mesosHttps
deriving DecidableEq

structure AppCommandCheck where
  value : String
deriving DecidableEq

inductive IpProtocol
  | ipv4
  | ipv6
deriving DecidableEq

structure AppHealthCheck where
  command : Option AppCommandCheck
  gracePeriodSeconds : ℤ
  ignoreHttp1xx : Option Bool
  intervalSeconds : ℤ
  maxConsecutiveFailures : ℤ
  path : Option String
  port : Option ℤ
  portIndex : Option ℤ
  protocol : AppHealthCheckProtocol
  ipProtocol : IpProtocol
  timeoutSeconds : ℤ
  delaySeconds : ℤ
deriving DecidableEq

inductive HttpScheme
  | http
  | https
deriving DecidableEq

structure AppHttpCheck where
  portIndex : Option ℤ
  port : Option ℤ
  path : Option String
  scheme : HttpScheme
deriving DecidableEq

structure AppTcpCheck where
  portIndex : Option ℤ
  port : Option ℤ
deriving DecidableEq

structure CommandCheck where
  command : MesosCommand
deriving DecidableEq

structure AppCheck where
  http : Option AppHttpCheck
  tcp : Option AppTcpCheck
  exec : Option CommandCheck
  intervalSeconds : ℤ
  timeoutSeconds : ℤ
  delaySeconds : ℤ
deriving DecidableEq

structure ReadinessCheck where
  name : String
  protocol : HttpScheme
  path : String
  portName : String
  intervalSeconds : ℤ
  timeoutSeconds : ℤ
  httpStatusCodesForReady : Option (Finset ℤ)
  preserveLastResponse : Bool
deriving DecidableEq

/-! ## Apps -/

structure App where
  id : String
  acceptedResourceRoles : Option (Finset String)
  args : List String
  backoffFactor : ℚ
  backoffSeconds : ℤ
  cmd : Option String
  constraints : Finset (List String)
  container : Option Container
  cpus : ℚ
  dependencies : Finset String
  disk : ℚ
  env : FMap String EnvVarValueOrSecret
  executor : String
  executorResources : Option ExecutorResources
  fetch : List Artifact
  healthChecks : Finset AppHealthCheck
  check : Option AppCheck
  instances : ℤ
  labels : FMap String String
  maxLaunchDelaySeconds : ℤ
  mem : ℚ
  gpus : ℤ
  networks : List Network
  portDefinitions : Option (List PortDefinition)
  readinessChecks : List ReadinessCheck
  residency : Option AppResidency
  resourceLimits : Option ResourceLimits
  requirePorts : Bool
  secrets : FMap String SecretDef
  taskKillGracePeriodSeconds : Option ℤ
  upgradeStrategy : Option UpgradeStrategy
  user : Option String
  version : Option Timestamp
  versionInfo : Option VersionInfo
  killSelection : KillSelection
  unreachableStrategy : Option UnreachableStrategy
  tty : Option Bool
  role : Option String
deriving DecidableEq

/-- `App.DefaultCpus`, and so on. -/
def App.defaultResources : Resources where
  cpus := 1
  mem := 128
  disk := 0
  gpus := 0

structure AppUpdate where
  acceptedResourceRoles : Option (Finset String) := none
  args : Option (List String) := none
  backoffFactor : Option ℚ := none
  backoffSeconds : Option ℤ := none
  cmd : Option String := none
  constraints : Option (Finset (List String)) := none
  container : Option Container := none
  cpus : Option ℚ := none
  dependencies : Option (Finset String) := none
  disk : Option ℚ := none
  env : Option (FMap String EnvVarValueOrSecret) := none
  executor : Option String := none
  executorResources : Option ExecutorResources := none
  fetch : Option (List Artifact) := none
  healthChecks : Option (Finset AppHealthCheck) := none
  check : Option AppCheck := none
  instances : Option ℤ := none
  labels : Option (FMap String String) := none
  maxLaunchDelaySeconds : Option ℤ := none
  mem : Option ℚ := none
  gpus : Option ℤ := none
  networks : Option (List Network) := none
  portDefinitions : Option (List PortDefinition) := none
  readinessChecks : Option (List ReadinessCheck) := none
  residency : Option AppResidency := none
  resourceLimits : Option ResourceLimits := none
  requirePorts : Option Bool := none
  secrets : Option (FMap String SecretDef) := none
  taskKillGracePeriodSeconds : Option ℤ := none
  upgradeStrategy : Option UpgradeStrategy := none
  user : Option String := none
  killSelection : Option KillSelection := none
  unreachableStrategy : Option UnreachableStrategy := none
  tty : Option Bool := none
  role : Option String := none

end Raml

end Marathon
