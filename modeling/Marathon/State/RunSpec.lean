import Mathlib.Data.Finmap
import Mathlib.Data.Rat.Defs
import Marathon.State.PathId
import Marathon.State.Timestamp

/-!
# The settings that apps and pods share

Every type is the source's case class or enumeration with its fields; a `Double`
is a rational and a `Map` a finite map.
-/

namespace Marathon

/-- A `Map[K, V]`, compared by its entries whatever their order. -/
abbrev FMap (K V : Type) := Finmap (fun _ : K => V)

abbrev Role := String

inductive EnvVarValue
  | envVarString (value : String)
  | envVarSecretRef (secret : String)
deriving DecidableEq

structure Secret where
  source : String
deriving DecidableEq

structure Resources where
  cpus : ℚ
  mem : ℚ
  disk : ℚ
  gpus : ℤ
deriving DecidableEq

/-- A limit is a `Double`, where infinity stands for no limit. -/
structure ResourceLimits where
  cpus : Option (WithTop ℚ)
  mem : Option (WithTop ℚ)
deriving DecidableEq

inductive Constraint.Operator
  | unique
  | like
  | cluster
  | groupBy
  | unlike
  | maxPer
  | is
deriving DecidableEq

structure Constraint where
  field : String
  operator : Constraint.Operator
  value : Option String
deriving DecidableEq

structure BackoffStrategy where
  backoff : FiniteDuration
  maxLaunchDelay : FiniteDuration
  factor : ℚ
deriving DecidableEq

structure UpgradeStrategy where
  minimumHealthCapacity : ℚ
  maximumOverCapacity : ℚ
deriving DecidableEq

inductive UnreachableStrategy
  | unreachableDisabled
  | unreachableEnabled (inactiveAfter expungeAfter : FiniteDuration)
deriving DecidableEq

inductive KillSelection
  | youngestFirst
  | oldestFirst
deriving DecidableEq

inductive Network
  | hostNetwork
  | containerNetwork (name : String) (labels : FMap String String)
  | bridgeNetwork (labels : FMap String String)
deriving DecidableEq

namespace Network

def hasNonHostNetworking (networks : List Network) : Bool := networks.any (· ≠ hostNetwork)

def hasContainerNetworking (networks : List Network) : Bool :=
  networks.any fun
    | containerNetwork _ _ => true
    | _ => false

end Network

/-! ## Volumes -/

inductive DiskType
  | root
  | path
  | mount
deriving DecidableEq

structure PersistentVolumeInfo where
  size : ℤ
  maxSize : Option ℤ
  type : DiskType
  profileName : Option String
  constraints : Finset Constraint
deriving DecidableEq

inductive CSIExternalVolumeInfo.AccessType
  | blockAccessType
  | mountAccessType (fsType : String) (mountFlags : List String)
deriving DecidableEq

inductive CSIExternalVolumeInfo.AccessMode
  | unknown
  | singleNodeWriter
  | singleNodeReaderOnly
  | multiNodeReaderOnly
  | multiNodeSingleWriter
  | multiNodeMultiWriter
deriving DecidableEq

inductive ExternalVolumeInfo
  | csiExternalVolumeInfo (name pluginName : String)
      (accessType : CSIExternalVolumeInfo.AccessType)
      (accessMode : CSIExternalVolumeInfo.AccessMode)
      (nodeStageSecret nodePublishSecret volumeContext : FMap String String)
  | dvdiExternalVolumeInfo (size : Option ℤ) (name provider : String)
      (options : FMap String String) (shared : Bool)
deriving DecidableEq

inductive Volume
  | hostVolume (name : Option String) (hostPath : String)
  | persistentVolume (name : Option String) (persistent : PersistentVolumeInfo)
  | externalVolume (name : Option String) (external : ExternalVolumeInfo)
  | secretVolume (name : Option String) (secret : String)
  | ephemeralVolume (name : Option String)
deriving DecidableEq

def Volume.isPersistent : Volume → Bool
  | persistentVolume .. => true
  | _ => false

structure VolumeMount where
  volumeName : Option String
  mountPath : String
  readOnly : Bool
deriving DecidableEq

structure VolumeWithMount where
  volume : Volume
  mount : VolumeMount
deriving DecidableEq

/-! ## Containers -/

structure Seccomp where
  profileName : Option String
  unconfined : Bool
deriving DecidableEq

inductive IpcMode
  | «private»
  | shareParent
deriving DecidableEq

structure IPCInfo where
  ipcMode : IpcMode
  shmSize : Option ℤ
deriving DecidableEq

structure LinuxInfo where
  seccomp : Option Seccomp
  ipcInfo : Option IPCInfo
deriving DecidableEq

structure Container.PortMapping where
  containerPort : ℤ
  hostPort : Option ℤ
  servicePort : ℤ
  protocol : String
  name : Option String
  labels : FMap String String
  networkNames : List String
deriving DecidableEq

structure Parameter where
  key : String
  value : String
deriving DecidableEq

structure Container.Credential where
  principal : String
  secret : Option String
deriving DecidableEq

structure Container.DockerPullConfig where
  secret : String
deriving DecidableEq

inductive Container
  | mesos (volumes : List VolumeWithMount) (portMappings : List Container.PortMapping)
      (linuxInfo : Option LinuxInfo)
  | docker (volumes : List VolumeWithMount) (image : String)
      (portMappings : List Container.PortMapping) (privileged : Bool)
      (parameters : List Parameter) (forcePullImage : Bool) (linuxInfo : Option LinuxInfo)
  | mesosDocker (volumes : List VolumeWithMount) (image : String)
      (portMappings : List Container.PortMapping) (credential : Option Container.Credential)
      (pullConfig : Option Container.DockerPullConfig) (forcePullImage : Bool)
      (linuxInfo : Option LinuxInfo)
deriving DecidableEq

def Container.portMappings : Container → List Container.PortMapping
  | mesos _ portMappings _ => portMappings
  | docker _ _ portMappings _ _ _ _ => portMappings
  | mesosDocker _ _ portMappings _ _ _ _ => portMappings

structure FetchUri where
  uri : String
  extract : Bool
  executable : Bool
  cache : Bool
  outputFile : Option String
deriving DecidableEq

structure PortDefinition where
  port : ℤ
  protocol : String
  name : Option String
  labels : FMap String String
deriving DecidableEq

/-! ## Checks -/

inductive Executable
  | command (value : String)
  | argvList (value : List String)
deriving DecidableEq

inductive PortReference
  | byIndex (value : ℤ)
  | byName (value : String)
deriving DecidableEq

inductive HealthCheck.Protocol
  | http
  | tcp
  | command
  | https
  | mesosHttp
  | mesosHttps
  | mesosTcp
deriving DecidableEq

inductive IpProtocol
  | ipv4
  | ipv6
deriving DecidableEq

/-- The health checks that Mesos runs. -/
inductive MesosHealthCheck
  | mesosCommandHealthCheck (gracePeriod interval timeout : FiniteDuration)
      (maxConsecutiveFailures : ℤ) (delay : FiniteDuration) (command : Executable)
  | mesosHttpHealthCheck (gracePeriod interval timeout : FiniteDuration)
      (maxConsecutiveFailures : ℤ) (portIndex : Option PortReference) (port : Option ℤ)
      (path : Option String) (protocol : HealthCheck.Protocol) (ipProtocol : IpProtocol)
      (delay : FiniteDuration)
  | mesosTcpHealthCheck (gracePeriod interval timeout : FiniteDuration)
      (maxConsecutiveFailures : ℤ) (portIndex : Option PortReference) (port : Option ℤ)
      (ipProtocol : IpProtocol) (delay : FiniteDuration)
deriving DecidableEq

inductive HealthCheck
  | marathonHttpHealthCheck (gracePeriod interval timeout : FiniteDuration)
      (maxConsecutiveFailures : ℤ) (portIndex : Option PortReference) (port : Option ℤ)
      (path : Option String) (protocol : HealthCheck.Protocol) (ignoreHttp1xx : Bool)
  | marathonTcpHealthCheck (gracePeriod interval timeout : FiniteDuration)
      (maxConsecutiveFailures : ℤ) (portIndex : Option PortReference) (port : Option ℤ)
  | mesosHealthCheck (check : MesosHealthCheck)
deriving DecidableEq

inductive Check
  | mesosCommandCheck (interval timeout delay : FiniteDuration) (command : Executable)
  | mesosHttpCheck (interval timeout : FiniteDuration) (portIndex : Option PortReference)
      (port : Option ℤ) (path : Option String) (delay : FiniteDuration)
  | mesosTcpCheck (interval timeout : FiniteDuration) (portIndex : Option PortReference)
      (port : Option ℤ) (delay : FiniteDuration)
deriving DecidableEq

inductive ReadinessCheck.Protocol
  | http
  | https
deriving DecidableEq

structure ReadinessCheck where
  name : String
  protocol : ReadinessCheck.Protocol
  path : String
  portName : String
  interval : FiniteDuration
  timeout : FiniteDuration
  httpStatusCodesForReady : Finset ℤ
  preserveLastResponse : Bool
deriving DecidableEq

/-! ## The containers of a pod -/

inductive MesosCommand
  | shellCommand (shell : String)
  | argvCommand (argv : List String)
deriving DecidableEq

structure MesosExec where
  command : MesosCommand
  overrideEntrypoint : Option Bool
deriving DecidableEq

structure Endpoint where
  name : String
  containerPort : Option ℤ
  hostPort : Option ℤ
  protocol : List String
  labels : FMap String String
  networkNames : List String
deriving DecidableEq

structure Image where
  id : String
  pullConfig : Option Container.DockerPullConfig
  forcePull : Option Bool
  labels : FMap String String
deriving DecidableEq

structure Lifecycle where
  killGracePeriodSeconds : Option ℚ
deriving DecidableEq

structure Artifact where
  uri : String
  extract : Bool
  executable : Bool
  cache : Bool
  destPath : Option String
deriving DecidableEq

structure MesosContainer where
  name : String
  exec : Option MesosExec
  resources : Resources
  endpoints : List Endpoint
  image : Option Image
  env : FMap String EnvVarValue
  user : Option String
  healthCheck : Option MesosHealthCheck
  volumeMounts : List VolumeMount
  artifacts : List Artifact
  labels : FMap String String
  lifecycle : Option Lifecycle
  tty : Option Bool
  linuxInfo : Option LinuxInfo
  resourceLimits : Option ResourceLimits
deriving DecidableEq

end Marathon
