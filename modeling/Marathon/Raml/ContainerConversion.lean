import Marathon.Lib.Conversion
import Marathon.Raml.AppTypes

/-!
# Conversions of containers

Constraints, networks, ports, volumes and containers are written to the API and read from it. There
is no result where the source throws. After each pair of conversions stands what it restores.
-/

namespace Marathon

open Lib

variable {volumes : List VolumeWithMount} {portMappings : List Marathon.Container.PortMapping}
  {kind : EngineType} {docker : Option DockerContainer} {linuxInfo : Option LinuxInfo}
  {nonHost : Bool}

namespace Raml

/-! ## Constraints -/

/-- The name of a value of the enumeration. -/
def operatorName : Constraint.Operator → String
  | .unique => "UNIQUE"
  | .like => "LIKE"
  | .cluster => "CLUSTER"
  | .groupBy => "GROUP_BY"
  | .unlike => "UNLIKE"
  | .maxPer => "MAX_PER"
  | .is => "IS"

/-- `valueOf`, for the names of `ValidOperators`. -/
def operatorOfName (op : String) : Option Constraint.Operator :=
  [.unique, .like, .cluster, .groupBy, .unlike, .maxPer, .is].find? fun o => operatorName o = op

def constraintToSeqStringWrites (constraint : Constraint) : List String :=
  constraint.field :: operatorName constraint.operator :: constraint.value.toList

def appConstraintRamlReader (raw : List String) : Option Constraint :=
  match raw[0]?, raw[1]?, raw[2]? with
  | some field, some op, value => (operatorOfName op).map fun operator => ⟨field, operator, value⟩
  | _, _, _ => none

theorem operatorOfName_operatorName (operator : Constraint.Operator) :
    operatorOfName (operatorName operator) = some operator := by
  cases operator <;> decide

theorem appConstraintRamlReader_writes (c : Constraint) :
    appConstraintRamlReader (constraintToSeqStringWrites c) = some c := by
  obtain ⟨field, operator, value⟩ := c
  cases value <;>
    simp [appConstraintRamlReader, constraintToSeqStringWrites, operatorOfName_operatorName]

/-- Only the paths of volumes are constrained, and by patterns only. -/
def volumeConstraintsReads (constraint : List String) : Option Constraint :=
  if constraint[0]? = some "path" ∧ constraint[1]? = some "LIKE" then
    constraint[2]?.map fun value => ⟨"path", .like, some value⟩
  else none

def IsPathConstraint (c : Constraint) : Prop :=
  c.field = "path" ∧ c.operator = .like ∧ c.value.isSome = true

theorem operatorName_eq_like {operator : Constraint.Operator} :
    operatorName operator = "LIKE" ↔ operator = .like := by
  cases operator <;> decide

theorem volumeConstraintsReads_writes {c d : Constraint} :
    volumeConstraintsReads (constraintToSeqStringWrites c) = some d ↔ IsPathConstraint c ∧ d = c := by
  obtain ⟨field, operator, value⟩ := c
  rw [volumeConstraintsReads, constraintToSeqStringWrites]
  simp only [List.getElem?_cons_zero, List.getElem?_cons_succ, Option.some.injEq,
    operatorName_eq_like, IsPathConstraint]
  by_cases h : field = "path" ∧ operator = .like
  · obtain ⟨rfl, rfl⟩ := h
    cases value <;> simp [eq_comm]
  · rw [if_neg h]
    exact iff_of_false (fun hd => by cases hd) fun hd => h ⟨hd.1.1, hd.1.2.1⟩

theorem setMapM_appConstraintRamlReader (s : Finset Constraint) :
    setMapM appConstraintRamlReader (s.image constraintToSeqStringWrites) = some s := by
  rw [setMapM_image_eq_some fun a b _ => appConstraintRamlReader_writes b]
  exact fun c _ => appConstraintRamlReader_writes c

theorem setMapM_volumeConstraintsReads {s : Finset Constraint} :
    setMapM volumeConstraintsReads (s.image constraintToSeqStringWrites) = some s ↔
      ∀ c ∈ s, IsPathConstraint c := by
  rw [setMapM_image_eq_some]
  · exact forall₂_congr fun c _ => volumeConstraintsReads_writes.trans (and_iff_left rfl)
  · intro a b hb
    obtain ⟨ha, rfl⟩ := volumeConstraintsReads_writes.mp hb
    exact hb

/-! ## Settings -/

def envVarRamlWrites : EnvVarValue → EnvVarValueOrSecret
  | .envVarString v => .envVarValue v
  | .envVarSecretRef secret => .envVarSecret secret

def envVarReads : EnvVarValueOrSecret → EnvVarValue
  | .envVarValue v => .envVarString v
  | .envVarSecret secret => .envVarSecretRef secret

def podSecretWriter (value : Secret) : SecretDef := ⟨value.source⟩

def podSecretReader (value : SecretDef) : Secret := ⟨value.source⟩

def artifactWrites (fetch : FetchUri) : Artifact where
  uri := fetch.uri
  extract := fetch.extract
  executable := fetch.executable
  cache := fetch.cache
  destPath := fetch.outputFile

def fetchUriReader (artifact : Artifact) : FetchUri where
  uri := artifact.uri
  extract := artifact.extract
  executable := artifact.executable
  cache := artifact.cache
  outputFile := artifact.destPath

theorem envVarReads_writes (value : EnvVarValue) : envVarReads (envVarRamlWrites value) = value := by
  cases value <;> rfl

theorem podSecretReader_writer (value : Secret) : podSecretReader (podSecretWriter value) = value :=
  rfl

/-! ## Networks and ports -/

def networkRamlWriter : Marathon.Network → Network
  | .containerNetwork name labels => ⟨some name, .container, labels⟩
  | .bridgeNetwork labels => ⟨none, .containerBridge, labels⟩
  | .hostNetwork => ⟨none, .host, ∅⟩

/-- A container network requires a name. -/
def networkRamlReader (network : Network) : Option Marathon.Network :=
  match network.mode with
  | .host => some .hostNetwork
  | .containerBridge => some (.bridgeNetwork network.labels)
  | .container => network.name.map fun name => .containerNetwork name network.labels

theorem networkRamlReader_writer (network : Marathon.Network) :
    networkRamlReader (networkRamlWriter network) = some network := by
  cases network <;> rfl

def protocolWrites (protocol : String) : Option NetworkProtocol :=
  if protocol = "tcp,udp" then some .udpTcp else NetworkProtocol.fromString protocol

/-- One of the protocols of the API, where both are in the order of the API. -/
def IsProtocol (protocol : String) : Prop := ∃ p : NetworkProtocol, p.value = protocol

theorem protocolWrites_value (p : NetworkProtocol) : protocolWrites p.value = some p := by
  cases p <;> decide

theorem map_value_protocolWrites {protocol : String} :
    (protocolWrites protocol).map NetworkProtocol.value = some protocol ↔ IsProtocol protocol := by
  constructor
  · intro h
    obtain ⟨p, -, hp⟩ := Option.map_eq_some_iff.mp h
    exact ⟨p, hp⟩
  · rintro ⟨p, rfl⟩
    rw [protocolWrites_value, Option.map_some]

def portDefinitionWrites (port : Marathon.PortDefinition) : Option PortDefinition :=
  (protocolWrites port.protocol).map fun protocol => ⟨port.port, port.labels, port.name, protocol⟩

def portDefinitionRamlReader (portDef : PortDefinition) : Marathon.PortDefinition where
  port := portDef.port
  protocol := portDef.protocol.value
  name := portDef.name
  labels := portDef.labels

def portMappingWrites (portMapping : Marathon.Container.PortMapping) :
    Option ContainerPortMapping :=
  (protocolWrites portMapping.protocol).map fun protocol => {
    networkNames := portMapping.networkNames
    containerPort := portMapping.containerPort
    hostPort := portMapping.hostPort
    labels := portMapping.labels
    name := portMapping.name
    protocol := protocol
    servicePort := portMapping.servicePort }

def portMappingRamlReader (mapping : ContainerPortMapping) : Marathon.Container.PortMapping where
  containerPort := mapping.containerPort
  -- the default instance has no host port either
  hostPort := mapping.hostPort
  servicePort := mapping.servicePort
  protocol := mapping.protocol.value
  name := mapping.name
  labels := mapping.labels
  networkNames := mapping.networkNames

theorem restores_portDefinition {port : Marathon.PortDefinition} :
    Restores portDefinitionWrites (fun portDef => some (portDefinitionRamlReader portDef)) port ↔
      IsProtocol port.protocol := by
  obtain ⟨number, protocol, name, labels⟩ := port
  rw [← map_value_protocolWrites, Restores, portDefinitionWrites]
  cases protocolWrites protocol with
  | none => exact iff_of_false (fun h => by cases h) fun h => by cases h
  | some p => simp [portDefinitionRamlReader]

theorem restores_portMapping {mapping : Marathon.Container.PortMapping} :
    Restores portMappingWrites (fun m => some (portMappingRamlReader m)) mapping ↔
      IsProtocol mapping.protocol := by
  obtain ⟨containerPort, hostPort, servicePort, protocol, name, labels, networkNames⟩ := mapping
  rw [← map_value_protocolWrites, Restores, portMappingWrites]
  cases protocolWrites protocol with
  | none => exact iff_of_false (fun h => by cases h) fun h => by cases h
  | some p => simp [portMappingRamlReader]

/-! ## Volumes -/

def readOnlyFlagWrites (readOnly : Bool) : ReadMode := if readOnly then .ro else .rw

def readOnlyFlagReads : ReadMode → Bool
  | .ro => true
  | .rw => false

@[simp]
theorem readOnlyFlagReads_writes (readOnly : Bool) :
    readOnlyFlagReads (readOnlyFlagWrites readOnly) = readOnly := by
  cases readOnly <;> rfl

def diskTypeWrites : DiskType → PersistentVolumeType
  | .mount => .mount
  | .path => .path
  | .root => .root

def volumeTypeReads : PersistentVolumeType → DiskType
  | .root => .root
  | .mount => .mount
  | .path => .path

def defaultDiskTypeForProfile (profileName : Option String) : DiskType :=
  if profileName.isSome then .mount else .root

def persistentVolumeInfoWrites (pv : Marathon.PersistentVolumeInfo) : PersistentVolumeInfo where
  type := some (diskTypeWrites pv.type)
  size := pv.size
  maxSize := pv.maxSize
  profileName := pv.profileName
  constraints := pv.constraints.image constraintToSeqStringWrites

def persistentVolumeInfoReads (persistent : PersistentVolumeInfo) :
    Option Marathon.PersistentVolumeInfo :=
  (setMapM volumeConstraintsReads persistent.constraints).map fun constraints => {
    type := (persistent.type.map volumeTypeReads).getD
      (defaultDiskTypeForProfile persistent.profileName)
    size := persistent.size
    maxSize := persistent.maxSize
    profileName := persistent.profileName
    constraints := constraints }

def accessModeName : CSIExternalVolumeInfo.AccessMode → String
  | .unknown => "UNKNOWN"
  | .singleNodeWriter => "SINGLE_NODE_WRITER"
  | .singleNodeReaderOnly => "SINGLE_NODE_READER_ONLY"
  | .multiNodeReaderOnly => "MULTI_NODE_READER_ONLY"
  | .multiNodeSingleWriter => "MULTI_NODE_SINGLE_WRITER"
  | .multiNodeMultiWriter => "MULTI_NODE_MULTI_WRITER"

/-- `AccessMode.fromString`. -/
def accessModeOfName (mode : String) : Option CSIExternalVolumeInfo.AccessMode :=
  [.unknown, .singleNodeWriter, .singleNodeReaderOnly, .multiNodeReaderOnly,
    .multiNodeSingleWriter, .multiNodeMultiWriter].find? fun m => accessModeName m = mode

def capabilityWrites (accessMode : CSIExternalVolumeInfo.AccessMode) :
    CSIExternalVolumeInfo.AccessType → CSICapability
  | .blockAccessType => ⟨accessModeName accessMode, "block", none, []⟩
  | .mountAccessType fsType mountFlags =>
    ⟨accessModeName accessMode, "mount", some fsType, mountFlags⟩

def accessTypeReads (capability : CSICapability) : Option CSIExternalVolumeInfo.AccessType :=
  if capability.accessType = "block" then some .blockAccessType
  else if capability.accessType = "mount" then
    capability.fsType.map fun fsType => .mountAccessType fsType capability.mountFlags
  else none

def externalVolumeWrites : Marathon.ExternalVolumeInfo → ExternalVolumeInfo
  | .dvdiExternalVolumeInfo size name provider options shared =>
    .dvdiExternalVolumeInfo size (some name) (some provider) options shared
  | .csiExternalVolumeInfo name pluginName accessType accessMode nodeStageSecret nodePublishSecret
      volumeContext =>
    .csiExternalVolumeInfo name "csi"
      ⟨pluginName, capabilityWrites accessMode accessType, nodeStageSecret, nodePublishSecret,
        volumeContext⟩

def externalVolumeReads : ExternalVolumeInfo → Option Marathon.ExternalVolumeInfo
  | .dvdiExternalVolumeInfo size name provider options shared => do
    let name ← name
    let provider ← provider
    some (.dvdiExternalVolumeInfo size name provider options shared)
  | .csiExternalVolumeInfo name _ options => do
    let accessType ← accessTypeReads options.capability
    let accessMode ← accessModeOfName options.capability.accessMode
    some (.csiExternalVolumeInfo name options.pluginName accessType accessMode
      options.nodeStageSecret options.nodePublishSecret options.volumeContext)

/-- Apps have no ephemeral volumes. -/
def volumeWrites (volumeWithMount : VolumeWithMount) : Option AppVolume :=
  let mount := volumeWithMount.mount
  match volumeWithMount.volume with
  | .hostVolume _ hostPath =>
    some (.appHostVolume mount.mountPath hostPath (readOnlyFlagWrites mount.readOnly))
  | .externalVolume _ external =>
    some (.appExternalVolume mount.mountPath (externalVolumeWrites external)
      (readOnlyFlagWrites mount.readOnly))
  | .persistentVolume _ persistent =>
    some (.appPersistentVolume mount.mountPath (persistentVolumeInfoWrites persistent)
      (readOnlyFlagWrites mount.readOnly))
  | .secretVolume _ secret => some (.appSecretVolume mount.mountPath secret)
  | .ephemeralVolume _ => none

def volumeReads : AppVolume → Option VolumeWithMount
  | .appExternalVolume containerPath external mode =>
    (externalVolumeReads external).map fun info =>
      ⟨.externalVolume none info, none, containerPath, readOnlyFlagReads mode⟩
  | .appPersistentVolume containerPath persistent mode =>
    (persistentVolumeInfoReads persistent).map fun info =>
      ⟨.persistentVolume none info, none, containerPath, readOnlyFlagReads mode⟩
  | .appHostVolume containerPath hostPath mode =>
    some ⟨.hostVolume none hostPath, none, containerPath, readOnlyFlagReads mode⟩
  | .appSecretVolume containerPath secret =>
    some ⟨.secretVolume none secret, none, containerPath, true⟩

/-- The volumes of apps have no names, and those for secrets are read-only. -/
def IsAppVolume (v : VolumeWithMount) : Prop :=
  v.mount.volumeName = none ∧
    match v.volume with
    | .hostVolume name _ => name = none
    | .persistentVolume name persistent =>
      name = none ∧ ∀ c ∈ persistent.constraints, IsPathConstraint c
    | .externalVolume name _ => name = none
    | .secretVolume name _ => name = none ∧ v.mount.readOnly = true
    | .ephemeralVolume _ => False

theorem externalVolumeReads_writes (external : Marathon.ExternalVolumeInfo) :
    externalVolumeReads (externalVolumeWrites external) = some external := by
  have hmode : ∀ mode, accessModeOfName (accessModeName mode) = some mode := by
    intro mode
    cases mode <;> decide
  cases external with
  | dvdiExternalVolumeInfo size name provider options shared => rfl
  | csiExternalVolumeInfo name pluginName accessType accessMode stage publish context =>
    cases accessType <;>
      simp [externalVolumeReads, externalVolumeWrites, capabilityWrites, accessTypeReads, hmode]

theorem restores_persistentVolumeInfo {persistent : Marathon.PersistentVolumeInfo} :
    persistentVolumeInfoReads (persistentVolumeInfoWrites persistent) = some persistent ↔
      ∀ c ∈ persistent.constraints, IsPathConstraint c := by
  obtain ⟨size, maxSize, type, profileName, constraints⟩ := persistent
  have htype : volumeTypeReads (diskTypeWrites type) = type := by cases type <;> rfl
  rw [← setMapM_volumeConstraintsReads, persistentVolumeInfoReads, Option.map_eq_some_iff]
  simp [persistentVolumeInfoWrites, htype]

theorem restores_volume {v : VolumeWithMount} :
    Restores volumeWrites volumeReads v ↔ IsAppVolume v := by
  obtain ⟨volume, volumeName, mountPath, readOnly⟩ := v
  cases volume with
  | hostVolume name hostPath =>
    simp [Restores, volumeWrites, volumeReads, IsAppVolume, eq_comm, and_comm]
  | persistentVolume name persistent =>
    dsimp only [IsAppVolume]
    rw [← restores_persistentVolumeInfo]
    simp [Restores, volumeWrites, volumeReads, eq_comm, and_comm, and_assoc]
  | externalVolume name external =>
    simp [Restores, volumeWrites, volumeReads, IsAppVolume, externalVolumeReads_writes, eq_comm,
      and_comm]
  | secretVolume name secret =>
    simp [Restores, volumeWrites, volumeReads, IsAppVolume, eq_comm, and_comm, and_left_comm,
      and_assoc]
  | ephemeralVolume name => exact iff_of_false (fun h => by cases h) fun h => h.2

/-! ## Containers -/

def ramlIpcModeWrite : IpcMode → IPCMode
  | .private => .private
  | .shareParent => .shareParent

def ramlIpcModeRead : IPCMode → IpcMode
  | .private => .private
  | .shareParent => .shareParent

def linuxInfoWrites (linuxInfo : Marathon.LinuxInfo) : LinuxInfo where
  seccomp := linuxInfo.seccomp.map fun seccomp => ⟨seccomp.profileName, seccomp.unconfined⟩
  ipcInfo := linuxInfo.ipcInfo.map fun info => ⟨ramlIpcModeWrite info.ipcMode, info.shmSize⟩

def linuxInfoReads (linuxInfo : LinuxInfo) : Marathon.LinuxInfo where
  seccomp := linuxInfo.seccomp.map fun seccomp => ⟨seccomp.profileName, seccomp.unconfined⟩
  ipcInfo := linuxInfo.ipcInfo.map fun info => ⟨ramlIpcModeRead info.mode, info.shmSize⟩

def dockerDockerContainerWrites (image : String) (parameters : List Parameter)
    (privileged forcePullImage : Bool) : DockerContainer where
  forcePullImage := forcePullImage
  image := image
  parameters := parameters.map fun param => ⟨param.key, param.value⟩
  privileged := privileged

def mesosDockerContainerWrites (image : String)
    (credential : Option Marathon.Container.Credential)
    (pullConfig : Option Marathon.Container.DockerPullConfig) (forcePullImage : Bool) :
    DockerContainer where
  image := image
  credential := credential.map fun c => ⟨c.principal, c.secret⟩
  pullConfig := pullConfig.map fun config => ⟨config.secret⟩
  forcePullImage := forcePullImage

/-- The local `create` of `containerWrites`. -/
def createContainer (volumes : List VolumeWithMount)
    (portMappings : List Marathon.Container.PortMapping) (kind : EngineType)
    (docker : Option DockerContainer) (linuxInfo : Option LinuxInfo) : Option Container := do
  let volumes ← volumes.mapM volumeWrites
  let portMappings ← portMappings.mapM portMappingWrites
  some ⟨kind, docker, linuxInfo, volumes, some portMappings⟩

def containerWrites : Marathon.Container → Option Container
  | .docker volumes image portMappings privileged parameters forcePullImage _ =>
    createContainer volumes portMappings .docker
      (some (dockerDockerContainerWrites image parameters privileged forcePullImage)) none
  | .mesosDocker volumes image portMappings credential pullConfig forcePullImage linuxInfo =>
    createContainer volumes portMappings .mesos
      (some (mesosDockerContainerWrites image credential pullConfig forcePullImage))
      (linuxInfo.map linuxInfoWrites)
  | .mesos volumes portMappings linuxInfo =>
    createContainer volumes portMappings .mesos none (linuxInfo.map linuxInfoWrites)

/-- Docker needs an image. -/
def appContainerRamlReader (container : Container) : Option Marathon.Container := do
  let volumes ← container.volumes.mapM volumeReads
  let portMappings ← some ((container.portMappings.getD []).map portMappingRamlReader)
  let linuxInfo ← some (container.linuxInfo.map linuxInfoReads)
  match container.type, container.docker with
  | .docker, some docker =>
    some (.docker volumes docker.image portMappings docker.privileged
      (docker.parameters.map fun p => ⟨p.key, p.value⟩) docker.forcePullImage none)
  | .mesos, some docker =>
    some (.mesosDocker volumes docker.image portMappings
      (docker.credential.map fun c => ⟨c.principal, c.secret⟩)
      (docker.pullConfig.map fun config => ⟨config.secret⟩) docker.forcePullImage linuxInfo)
  | .mesos, none => some (.mesos volumes portMappings linuxInfo)
  | .docker, none => none

/-- The volumes of a container. -/
def containerVolumes : Marathon.Container → List VolumeWithMount
  | .mesos volumes _ _ => volumes
  | .docker volumes _ _ _ _ _ _ => volumes
  | .mesosDocker volumes _ _ _ _ _ _ => volumes

/-- All volumes and protocols are those of apps, and Docker has no Linux info. -/
def IsAppContainer (container : Marathon.Container) : Prop :=
  (∀ v ∈ containerVolumes container, IsAppVolume v) ∧
    (∀ m ∈ container.portMappings, IsProtocol m.protocol) ∧
    match container with
    | .docker _ _ _ _ _ _ linuxInfo => linuxInfo = none
    | .mesos .. | .mesosDocker .. => True

theorem linuxInfoReads_writes (linuxInfo : Marathon.LinuxInfo) :
    linuxInfoReads (linuxInfoWrites linuxInfo) = linuxInfo := by
  have hmode : ∀ mode, ramlIpcModeRead (ramlIpcModeWrite mode) = mode := by
    intro mode
    cases mode <;> rfl
  obtain ⟨seccomp, ipcInfo⟩ := linuxInfo
  cases seccomp <;> cases ipcInfo <;> simp [linuxInfoReads, linuxInfoWrites, hmode]

theorem createContainer_eq_some {written : Container} :
    createContainer volumes portMappings kind docker linuxInfo = some written ↔
      ∃ vs ms, volumes.mapM volumeWrites = some vs ∧
        portMappings.mapM portMappingWrites = some ms ∧
        written = ⟨kind, docker, linuxInfo, vs, some ms⟩ := by
  rw [createContainer]
  constructor
  · intro h
    obtain ⟨vs, hvs, h⟩ := Option.bind_eq_some_iff.mp h
    obtain ⟨ms, hms, h⟩ := Option.bind_eq_some_iff.mp h
    exact ⟨vs, ms, hvs, hms, (Option.some.inj h).symm⟩
  · rintro ⟨vs, ms, hvs, hms, rfl⟩
    rw [hvs, hms]
    rfl

section Restored

variable {volumes : List VolumeWithMount} {portMappings : List Marathon.Container.PortMapping}
  {nonHost : Bool} (hhost : nonHost = false → portMappings = [])

include hhost in
theorem restores_parts :
    (∃ vs ms, volumes.mapM volumeWrites = some vs ∧ portMappings.mapM portMappingWrites = some ms ∧
      vs.mapM volumeReads = some volumes ∧
      ((if nonHost then some ms else none).getD []).map portMappingRamlReader = portMappings) ↔
    (∀ v ∈ volumes, IsAppVolume v) ∧ ∀ m ∈ portMappings, IsProtocol m.protocol := by
  have hvolumes : (∀ v ∈ volumes, IsAppVolume v) ↔
      ∃ vs, volumes.mapM volumeWrites = some vs ∧ vs.mapM volumeReads = some volumes := by
    rw [← restores_iff, restores_list]
    exact forall₂_congr fun v _ => restores_volume.symm
  have hmappings : (∀ m ∈ portMappings, IsProtocol m.protocol) ↔
      ∃ ms, portMappings.mapM portMappingWrites = some ms ∧
        ms.map portMappingRamlReader = portMappings := by
    have hread : ∀ ms : List ContainerPortMapping,
        ms.mapM (fun m => some (portMappingRamlReader m)) = some (ms.map portMappingRamlReader) :=
      fun ms => List.mapM_pure
    have hall : (∀ m ∈ portMappings, IsProtocol m.protocol) ↔ ∀ m ∈ portMappings,
        Restores portMappingWrites (fun m => some (portMappingRamlReader m)) m :=
      forall₂_congr fun m _ => restores_portMapping.symm
    rw [hall, ← restores_list, restores_iff]
    refine exists_congr fun ms => and_congr_right fun _ => ?_
    rw [hread, Option.some.injEq]
  rw [hvolumes, hmappings]
  cases nonHost with
  | true =>
    constructor
    · rintro ⟨vs, ms, hvs, hms, hvolumes, hmappings⟩
      exact ⟨⟨vs, hvs, hvolumes⟩, ms, hms, hmappings⟩
    · rintro ⟨⟨vs, hvs, hvolumes⟩, ms, hms, hmappings⟩
      exact ⟨vs, ms, hvs, hms, hvolumes, hmappings⟩
  | false =>
    obtain rfl := hhost rfl
    constructor
    · rintro ⟨vs, -, hvs, -, hvolumes, -⟩
      exact ⟨⟨vs, hvs, hvolumes⟩, [], rfl, rfl⟩
    · rintro ⟨⟨vs, hvs, hvolumes⟩, -⟩
      exact ⟨vs, [], hvs, rfl, hvolumes, rfl⟩

end Restored

/-- The container of an app is written without port mappings if the network is the host's. -/
def appContainerWrites (nonHost : Bool) (container : Marathon.Container) : Option Container :=
  (containerWrites container).map fun written =>
    if nonHost then written else { written with portMappings := none }

theorem appContainerWrites_eq {written : Container} :
    (createContainer volumes portMappings kind docker linuxInfo).map (fun written =>
      if nonHost then written else { written with portMappings := none }) = some written ↔
    ∃ vs ms, volumes.mapM volumeWrites = some vs ∧ portMappings.mapM portMappingWrites = some ms ∧
      written = ⟨kind, docker, linuxInfo, vs, if nonHost then some ms else none⟩ := by
  rw [Option.map_eq_some_iff]
  constructor
  · rintro ⟨w, hw, rfl⟩
    obtain ⟨vs, ms, hvs, hms, rfl⟩ := createContainer_eq_some.mp hw
    refine ⟨vs, ms, hvs, hms, ?_⟩
    cases nonHost <;> rfl
  · rintro ⟨vs, ms, hvs, hms, rfl⟩
    refine ⟨_, createContainer_eq_some.mpr ⟨vs, ms, hvs, hms, rfl⟩, ?_⟩
    cases nonHost <;> rfl

theorem restores_created
    (container : List VolumeWithMount → List Marathon.Container.PortMapping → Marathon.Container)
    (hinj : ∀ vs ms vs' ms', container vs ms = container vs' ms' → vs = vs' ∧ ms = ms')
    (hhost : nonHost = false → portMappings = [])
    (hwrite : containerWrites (container volumes portMappings) =
      createContainer volumes portMappings kind docker linuxInfo)
    (hread : ∀ vs ms, appContainerRamlReader ⟨kind, docker, linuxInfo, vs, ms⟩ =
      (vs.mapM volumeReads).map fun volumes =>
        container volumes ((ms.getD []).map portMappingRamlReader)) :
    Restores (appContainerWrites nonHost) appContainerRamlReader (container volumes portMappings) ↔
      (∀ v ∈ volumes, IsAppVolume v) ∧ ∀ m ∈ portMappings, IsProtocol m.protocol := by
  rw [restores_iff, ← restores_parts hhost]
  constructor
  · rintro ⟨written, hwritten, h⟩
    rw [appContainerWrites, hwrite] at hwritten
    obtain ⟨vs, ms, hvs, hms, rfl⟩ := appContainerWrites_eq.mp hwritten
    rw [hread] at h
    obtain ⟨volumes', hvolumes, heq⟩ := Option.map_eq_some_iff.mp h
    obtain ⟨rfl, hmappings⟩ := hinj _ _ _ _ heq
    exact ⟨vs, ms, hvs, hms, hvolumes, hmappings⟩
  · rintro ⟨vs, ms, hvs, hms, hvolumes, hmappings⟩
    refine ⟨⟨kind, docker, linuxInfo, vs, if nonHost then some ms else none⟩, ?_, ?_⟩
    · rw [appContainerWrites, hwrite]
      exact appContainerWrites_eq.mpr ⟨vs, ms, hvs, hms, rfl⟩
    · rw [hread, hvolumes, Option.map_some, hmappings]

theorem map_linuxInfoReads_writes (linuxInfo : Option Marathon.LinuxInfo) :
    (linuxInfo.map linuxInfoWrites).map linuxInfoReads = linuxInfo := by
  rw [Option.map_map]
  cases linuxInfo with
  | none => rfl
  | some linuxInfo => exact congrArg some (linuxInfoReads_writes linuxInfo)

theorem restores_container {container : Marathon.Container}
    (hhost : nonHost = false → container.portMappings = []) :
    Restores (appContainerWrites nonHost) appContainerRamlReader container ↔
      IsAppContainer container := by
  cases container with
  | mesos volumes portMappings linuxInfo =>
    dsimp only [IsAppContainer, containerVolumes, Marathon.Container.portMappings]
    rw [and_true]
    refine restores_created (fun vs ms => .mesos vs ms linuxInfo)
      (fun vs ms vs' ms' h => ?_) hhost rfl fun vs ms => ?_
    · injection h with hvs hms
      exact ⟨hvs, hms⟩
    · rw [appContainerRamlReader, map_linuxInfoReads_writes]
      cases List.mapM volumeReads vs <;> rfl
  | mesosDocker volumes image portMappings credential pullConfig forcePullImage linuxInfo =>
    dsimp only [IsAppContainer, containerVolumes, Marathon.Container.portMappings]
    rw [and_true]
    refine restores_created (fun vs ms => .mesosDocker vs image ms credential pullConfig
      forcePullImage linuxInfo) (fun vs ms vs' ms' h => ?_) hhost rfl fun vs ms => ?_
    · injection h with hvs _ hms
      exact ⟨hvs, hms⟩
    · rw [appContainerRamlReader, map_linuxInfoReads_writes]
      cases List.mapM volumeReads vs <;> cases credential <;> cases pullConfig <;> rfl
  | docker volumes image portMappings privileged parameters forcePullImage linuxInfo =>
    dsimp only [IsAppContainer, containerVolumes, Marathon.Container.portMappings]
    have hparameters : (parameters.map fun param => (⟨param.key, param.value⟩ : DockerParameter)).map
        (fun p => (⟨p.key, p.value⟩ : Parameter)) = parameters := by
      rw [List.map_map]
      exact List.map_id _
    have hread : ∀ vs ms, appContainerRamlReader ⟨.docker, some (dockerDockerContainerWrites image
        parameters privileged forcePullImage), none, vs, ms⟩ = (vs.mapM volumeReads).map
          fun volumes => .docker volumes image ((ms.getD []).map portMappingRamlReader) privileged
            parameters forcePullImage none := by
      intro vs ms
      rw [appContainerRamlReader]
      dsimp only [dockerDockerContainerWrites]
      rw [hparameters]
      cases List.mapM volumeReads vs <;> rfl
    cases linuxInfo with
    | none =>
      rw [eq_self_iff_true, and_true]
      refine restores_created (fun vs ms => .docker vs image ms privileged parameters
        forcePullImage none) (fun vs ms vs' ms' h => ?_) hhost rfl hread
      injection h with hvs _ hms
      exact ⟨hvs, hms⟩
    | some linuxInfo =>
      -- the Linux info is not written
      refine iff_of_false (fun h => ?_) fun h => by cases h.2.2
      obtain ⟨written, hwritten, h⟩ := restores_iff.mp h
      obtain ⟨vs, ms, -, -, rfl⟩ := appContainerWrites_eq.mp hwritten
      rw [hread] at h
      obtain ⟨volumes', -, heq⟩ := Option.map_eq_some_iff.mp h
      injection heq with _ _ _ _ _ _ hnone
      cases hnone

end Raml

end Marathon
