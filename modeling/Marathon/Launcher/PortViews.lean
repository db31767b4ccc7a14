import Marathon.Launcher.PortsMatcher

/-!
# Three views of a port

The ports of an offer are told to the container, to the environment of the task, and to those who
ask for its port assignments. Each of them decides by itself what becomes of a mapping.
-/

namespace Marathon

open Lib PortsMatcher

/-! ## The container -/

namespace TaskBuilder

/-- What `ContainerSerializer.toMesos` is given, and whether there is a tty. -/
structure ContainerInfo where
  container : Option Container
  tty : Bool

/-- A container port of 0 is replaced by the host port. -/
def boundPortMapping (mapping : Container.PortMapping) (hport : ℕ) : Container.PortMapping :=
  if mapping.containerPort = 0 then
    { mapping with hostPort := some (hport : ℤ), containerPort := hport }
  else { mapping with hostPort := some (hport : ℤ) }

def boundPortMappings (container : Container) (hostPorts : List (Option ℕ)) :
    List Container.PortMapping :=
  (container.portMappings.zip hostPorts).filterMap fun p => p.2.map (boundPortMapping p.1)

/-- A Docker container gets a label with the id of the task. -/
def containerWithPortMappings (container : Container) (hostPorts : List (Option ℕ))
    (taskId : String) : Container :=
  match container with
  | .mesos volumes _ linuxInfo => .mesos volumes (boundPortMappings container hostPorts) linuxInfo
  | .docker volumes image _ privileged parameters forcePullImage linuxInfo =>
    .docker volumes image (boundPortMappings container hostPorts) privileged
      (parameters ++ [⟨"label", "MESOS_TASK_ID=" ++ taskId⟩]) forcePullImage linuxInfo
  | .mesosDocker volumes image _ credential pullConfig forcePullImage linuxInfo =>
    .mesosDocker volumes image (boundPortMappings container hostPorts) credential pullConfig
      forcePullImage linuxInfo

def computeContainerInfo (app : AppDefinition) (hostPorts : List (Option ℕ)) (taskId : String) :
    Option ContainerInfo :=
  if app.container = none ∧ Network.hasNonHostNetworking app.networks = false then none
  else
    some {
      container := app.container.map fun c => containerWithPortMappings c hostPorts taskId
      tty := app.tty.getD false }

end TaskBuilder

/-! ## Port assignments -/

structure PortAssignment where
  portName : Option String
  effectiveIpAddress : Option String
  effectivePort : ℤ
  hostPort : Option ℤ
  containerPort : Option ℤ
deriving DecidableEq

namespace PortAssignment

def noPort : ℤ := -1

/-- What a port assignment requires of its fields. -/
def required (a : PortAssignment) : Bool :=
  (a.effectiveIpAddress.isSome || a.effectivePort = noPort) &&
    (a.effectivePort ≠ noPort || a.effectiveIpAddress = none)

def isResolved (a : PortAssignment) : Bool :=
  a.effectiveIpAddress.isSome && a.effectivePort ≠ noPort

end PortAssignment

namespace NetworkInfo

inductive Failure
  /-- A `require` that does not hold. -/
  | illegalArgument
  /-- Host ports and port mappings do not align. -/
  | illegalState
deriving DecidableEq

def checked (a : PortAssignment) : Except Failure PortAssignment :=
  if a.required then .ok a else .error .illegalArgument

/-- The first address must define an `ipAddress`. -/
def pickFirstIpAddressFrom : List Mesos.IPAddress → Except Failure (Option String)
  | [] => .ok none
  | address :: _ =>
    match address.ipAddress with
    | some ipAddress => .ok (some ipAddress)
    | none => .error .illegalArgument

def effectiveIpAddress (info : NetworkInfo) (app : AppDefinition) :
    Except Failure (Option String) :=
  if Network.hasContainerNetworking app.networks then pickFirstIpAddressFrom info.ipAddresses
  else .ok (some info.hostName)

/-- One assignment for each mapping: host ports go to the mappings that have requested one. -/
def fromPortMappings (hostName : String) (effectiveIpAddress : Option String) :
    List Container.PortMapping → List ℤ → Except Failure (List PortAssignment)
  | [], [] => .ok []
  | [], _ :: _ => .error .illegalState
  | mapping :: mappings, ports =>
    if mapping.hostPort = none then do
      let assignment ← checked {
        portName := mapping.name
        effectiveIpAddress := effectiveIpAddress
        effectivePort := if effectiveIpAddress = none then PortAssignment.noPort
          else mapping.containerPort
        hostPort := none
        containerPort := some mapping.containerPort }
      let assignments ← fromPortMappings hostName effectiveIpAddress mappings ports
      return assignment :: assignments
    else
      match ports with
      | [] => .error .illegalState
      | hostPort :: ports => do
        let assignment ← checked {
          portName := mapping.name
          effectiveIpAddress := some hostName
          effectivePort := hostPort
          hostPort := some hostPort
          containerPort :=
            some (if mapping.containerPort = 0 then hostPort else mapping.containerPort) }
        let assignments ← fromPortMappings hostName effectiveIpAddress mappings ports
        return assignment :: assignments

def fromPortDefinitions (app : AppDefinition) (effectiveIpAddress : Option String)
    (hostPorts : List ℤ) : Except Failure (List PortAssignment) :=
  (app.portDefinitions.zip hostPorts).mapM fun (portDefinition, hostPort) => checked {
    portName := portDefinition.name
    effectiveIpAddress := effectiveIpAddress
    effectivePort := hostPort
    hostPort := some hostPort
    containerPort := none }

def computePortAssignments (app : AppDefinition) (hostName : String) (hostPorts : List ℤ)
    (effectiveIpAddress : Option String) (includeUnresolved : Bool) :
    Except Failure (List PortAssignment) :=
  match app.container with
  | some c =>
    if Network.hasNonHostNetworking app.networks then do
      let mappings ← fromPortMappings hostName effectiveIpAddress c.portMappings hostPorts
      return if includeUnresolved then mappings else mappings.filter PortAssignment.isResolved
    else fromPortDefinitions app effectiveIpAddress hostPorts
  | none => fromPortDefinitions app effectiveIpAddress hostPorts

def portAssignments (info : NetworkInfo) (app : AppDefinition) (includeUnresolved : Bool) :
    Except Failure (List PortAssignment) := do
  let effectiveIpAddress ← info.effectiveIpAddress app
  computePortAssignments app info.hostName info.hostPorts effectiveIpAddress includeUnresolved

end NetworkInfo

/-! ## The environment -/

namespace EnvironmentHelper

structure PortRequest where
  name : Option String
  port : ℤ

/-- What is left to chance: `next` picks a port that is not consumed, if it comes to an end, and
the ports that have been picked are iterated in the order of a map. -/
structure ContainerPortGenerator where
  next : List ℤ → Option ℤ
  values : List (ℕ × ℤ) → List (ℕ × ℤ)
  of_next : ∀ consumedPorts port, next consumedPorts = some port →
    1025 ≤ port ∧ port ≤ 65535 ∧ port ∉ consumedPorts
  perm_values : ∀ ports, (values ports).Perm ports

variable (generator : ContainerPortGenerator) (requestedPorts : List PortRequest)

/-- The variables with the indices of the ports, and the ports that are generated for some. -/
def indexedPorts : ℕ → List (Option ℕ) → List ℤ → Option (List (String × String) × List (ℕ × ℤ))
  | _, [], _ => some ([], [])
  | portIndex, some hostPort :: hostPorts, consumedPorts =>
    (indexedPorts (portIndex + 1) hostPorts consumedPorts).map fun (env, generated) =>
      (("PORT" ++ portIndex.repr, hostPort.repr) :: env, generated)
  | portIndex, none :: hostPorts, consumedPorts =>
    match requestedPorts[portIndex]? with
    | none => indexedPorts (portIndex + 1) hostPorts consumedPorts
    | some ⟨_, containerPort⟩ =>
      if containerPort = 0 then
        (generator.next consumedPorts).bind fun randomPort =>
          (indexedPorts (portIndex + 1) hostPorts (randomPort :: consumedPorts)).map
            fun (env, generated) =>
              (("PORT" ++ portIndex.repr, randomPort.repr) :: env, (portIndex, randomPort) :: generated)
      else
        (indexedPorts (portIndex + 1) hostPorts consumedPorts).map fun (env, generated) =>
          (("PORT" ++ portIndex.repr, containerPort.repr) :: env, generated)

/-- The variable with the number of a port; `generatedPorts(portIndex)` may throw. -/
def numberedPort (generatedPorts : List (ℕ × ℤ)) :
    (PortRequest × Option ℕ) × ℕ → Option (String × String)
  | ((⟨_, requestedPort⟩, some effectivePort), _) =>
    if requestedPort ≠ 0 then some ("PORT_" ++ requestedPort.repr, effectivePort.repr)
    else some ("PORT_" ++ effectivePort.repr, effectivePort.repr)
  | ((⟨_, requestedPort⟩, none), portIndex) =>
    if requestedPort ≠ 0 then some ("PORT_" ++ requestedPort.repr, requestedPort.repr)
    else
      (generatedPorts.lookup portIndex).map fun generatedPort =>
        ("PORT_" ++ generatedPort.repr, generatedPort.repr)

/-- The variable with the name of a port, if it has one. -/
def namedPort (generatedPorts : List (ℕ × ℤ)) :
    (PortRequest × Option ℕ) × ℕ → Option (List (String × String))
  | ((⟨some portName, _⟩, some effectivePort), _) =>
    some [("PORT_" ++ portName.toUpper, effectivePort.repr)]
  | ((⟨some portName, port⟩, none), portIndex) =>
    if port ≠ 0 then some [("PORT_" ++ portName.toUpper, port.repr)]
    else
      (generatedPorts.lookup portIndex).map fun generatedPort =>
        [("PORT_" ++ portName.toUpper, generatedPort.repr)]
  | ((⟨none, _⟩, _), _) => some []

/-- The variables in the order in which they are added: the last one of a name stays. -/
def toEnv (bindings : List (String × String)) : Dict String String :=
  (∅ : Dict String String).insertAll bindings

def portsEnv (hostPorts : List (Option ℕ)) : Option (Dict String String) :=
  if hostPorts = [] then some ∅
  else
    let consumedPorts := requestedPorts.map PortRequest.port ++ hostPorts.reduceOption.map Nat.cast
    (indexedPorts generator requestedPorts 0 hostPorts consumedPorts).bind
      fun (indexed, generatedPorts) =>
        let ports := (requestedPorts.zip hostPorts).zipIdx
        (ports.mapM (numberedPort generatedPorts)).bind fun numbered =>
          (ports.mapM (namedPort generatedPorts)).map fun named =>
            let allAssigned : List ℤ := hostPorts.reduceOption.map Nat.cast ++
              (generator.values generatedPorts).map Prod.snd
            let first := allAssigned.head?.toList.map fun port => ("PORT", port.repr)
            toEnv (indexed ++ numbered ++ named.flatten ++ first ++
              [("PORTS", ",".intercalate (allAssigned.map Int.repr))])

end EnvironmentHelper

namespace TaskBuilder

/-- The ports that `commandInfo` asks variables for. -/
def declaredPorts (app : AppDefinition) : List EnvironmentHelper.PortRequest :=
  match app.container.filter fun c => c.portMappings ≠ [] with
  | some container => container.portMappings.map fun pm => ⟨pm.name, pm.containerPort⟩
  | none => app.portDefinitions.map fun pd => ⟨pd.name, pd.port⟩

end TaskBuilder

end Marathon
