import Marathon.Instance.IdStrings
import Marathon.Lib.IsoDateTime
import Marathon.Lib.Json

/-!
# The stored form of instances

An instance is stored as JSON, without its run spec, of which only the version is kept. Ids
and timestamps are texts, the messages of Mesos are in base64.
-/

namespace Marathon

open Lib PathId
open Lib.Json (Format Fields)

/-- The messages that are kept in base64. -/
inductive Mesos.Message
  | ofAttribute (value : Attribute)
  | ofTaskStatus (status : TaskStatus)

/-! ## Formats of single values -/

namespace Formats

/-- A text with a least length. -/
def minLength {A : Type*} (length : ℕ) (ofText : String → Option A) (text : String) : Option A :=
  if length ≤ text.length then ofText text else none

end Formats

/-- `Timestamp.toString`. -/
def Timestamp.string (timestamp : Timestamp) : String :=
  String.ofList (OffsetDateTime.patternText timestamp.instant)

/-- `Timestamp.apply` of a text. -/
def Timestamp.ofString (time : String) : Option Timestamp :=
  ((OffsetDateTime.parse time).map OffsetDateTime.instant).map Timestamp.mk

def timestampFormat : Format Mesos.Message Timestamp := .text Timestamp.string Timestamp.ofString

def pathIdFormat : Format Mesos.Message AbsolutePathId :=
  .text AbsolutePathId.string (Formats.minLength 1 PathId.ofString)

namespace Condition

def string : Condition → String
  | scheduled => "Scheduled"
  | provisioned => "Provisioned"
  | error => "Error"
  | failed => "Failed"
  | finished => "Finished"
  | killed => "Killed"
  | killing => "Killing"
  | running => "Running"
  | staging => "Staging"
  | starting => "Starting"
  | unreachable => "Unreachable"
  | unreachableInactive => "UnreachableInactive"
  | gone => "Gone"
  | dropped => "Dropped"
  | unknown => "Unknown"

def all : List Condition :=
  [error, failed, finished, killed, killing, running, staging, starting, unreachable,
    unreachableInactive, gone, dropped, unknown, scheduled, provisioned]

/-- `toLowerCase`, of ASCII letters. -/
def lowerCase (s : String) : List Char := s.toList.map Char.toLower

/-- `Condition.apply`. -/
def ofString (s : String) : Condition :=
  (all.find? fun condition => lowerCase condition.string = lowerCase s).getD unknown

/-- `conditionFormat`; an object with the text in `str` is read as well. -/
def format : Format Mesos.Message Condition where
  writes condition := .string condition.string
  reads
    | .string s => some (ofString s)
    | .object fields =>
      match Json.find fields "str" with
      | some (.string s) => some (ofString s)
      | _ => none
    | _ => none
  writes_ne_null _ := nofun

end Condition

namespace Goal

def string : Goal → String
  | running => "Running"
  | stopped => "Stopped"
  | decommissioned => "Decommissioned"

def ofString : String → Option Goal
  | "Running" => some running
  | "Stopped" => some stopped
  | "Decommissioned" => some decommissioned
  | _ => none

def format : Format Mesos.Message Goal := .text string ofString

end Goal

/-! ## Instances -/

namespace Mesos

def attributeFormat : Format Message Attribute :=
  Format.message.collect .ofAttribute fun
    | .ofAttribute value => some value
    | _ => none

def taskStatusFormat : Format Message TaskStatus :=
  Format.message.collect .ofTaskStatus fun
    | .ofTaskStatus status => some status
    | _ => none

/-- The names of `NetworkInfo.Protocol`. -/
def protocols : List String := ["IPv4", "IPv6"]

def protocolFormat : Format Message String :=
  .text id fun name => if name ∈ protocols then some name else none

namespace IPAddress

/-- The default of a text is empty. -/
def getIpAddress (address : IPAddress) : String := address.ipAddress.getD ""

def getProtocol (address : IPAddress) : String := address.protocol.getD "IPv4"

/-- `ipAddressFormat`: both fields are set when it is read. -/
def format : Format Message IPAddress :=
  let fields : Fields Mesos.Message _ := (Fields.required "ipAddress" Format.plain).and (.required "protocol" protocolFormat)
    (by decide)
  (Format.object fields).collect (fun address => (address.getIpAddress, address.getProtocol))
    fun (ipAddress, protocol) => some ⟨some protocol, some ipAddress⟩

end IPAddress

end Mesos

def agentFormat : Format Mesos.Message AgentInfo :=
  let fields : Fields Mesos.Message _ := (Fields.required "host" Format.plain).and
    ((Fields.optional "agentId" Format.plain).and
      ((Fields.optional "region" Format.plain).and
        ((Fields.optional "zone" Format.plain).and
          (.required "attributes" Mesos.attributeFormat.list)
          (by decide)) (by decide)) (by decide)) (by decide)
  .record fields
    { toFun := fun agent => (agent.host, agent.agentId, agent.region, agent.zone, agent.attributes)
      invFun := fun (host, agentId, region, zone, attributes) =>
        ⟨host, agentId, region, zone, attributes⟩ }

def instanceIdFormat : Format Mesos.Message InstanceId :=
  .object (.required "idString" (.text InstanceId.idString InstanceId.fromIdString))

def instanceStateFormat : Format Mesos.Message InstanceState :=
  let fields : Fields Mesos.Message _ := (Fields.required "condition" Condition.format).and
    ((Fields.required "since" timestampFormat).and
      ((Fields.optional "activeSince" timestampFormat).and
        ((Fields.optional "healthy" Format.bool).and
          (.required "goal" Goal.format)
          (by decide)) (by decide)) (by decide)) (by decide)
  .record fields
    { toFun := fun state =>
        (state.condition, state.since, state.activeSince, state.healthy, state.goal)
      invFun := fun (condition, since, activeSince, healthy, goal) =>
        ⟨condition, since, activeSince, healthy, goal⟩ }

/-! ### Tasks -/

def taskIdFormat : Format Mesos.Message TaskId :=
  .text TaskId.idString (Formats.minLength 3 TaskId.parse)

def taskStatusNetworkInfoFormat : Format Mesos.Message NetworkInfo :=
  let fields : Fields Mesos.Message _ := (Fields.required "hostName" Format.plain).and
    ((Fields.required "hostPorts" Format.int.list).and
      (.required "ipAddresses" Mesos.IPAddress.format.list)
      (by decide)) (by decide)
  .record fields
    { toFun := fun info => (info.hostName, info.hostPorts, info.ipAddresses)
      invFun := fun (hostName, hostPorts, ipAddresses) => ⟨hostName, hostPorts, ipAddresses⟩ }

def Task.statusFormat : Format Mesos.Message Task.Status :=
  let fields : Fields Mesos.Message _ := (Fields.required "stagedAt" timestampFormat).and
    ((Fields.optional "startedAt" timestampFormat).and
      ((Fields.optional "mesosStatus" Mesos.taskStatusFormat).and
        ((Fields.required "condition" Condition.format).and
          (.required "networkInfo" taskStatusNetworkInfoFormat)
          (by decide)) (by decide)) (by decide)) (by decide)
  .record fields
    { toFun := fun status =>
        (status.stagedAt, status.startedAt, status.mesosStatus, status.condition, status.networkInfo)
      invFun := fun (stagedAt, startedAt, mesosStatus, condition, networkInfo) =>
        ⟨stagedAt, startedAt, mesosStatus, condition, networkInfo⟩ }

def taskFormat : Format Mesos.Message Task :=
  let fields : Fields Mesos.Message _ := (Fields.required "taskId" taskIdFormat).and
    ((Fields.required "runSpecVersion" timestampFormat).and
      (.required "status" Task.statusFormat)
      (by decide)) (by decide)
  .record fields
    { toFun := fun task => (task.taskId, task.runSpecVersion, task.status)
      invFun := fun (taskId, runSpecVersion, status) => ⟨taskId, runSpecVersion, status⟩ }

def tasksMapFormat : Format Mesos.Message (Dict TaskId Task) :=
  .map TaskId.idString TaskId.parse taskFormat

/-! ### Reservations -/

namespace LocalVolumeId

def idString (id : LocalVolumeId) : String := id.runSpecId.safePath ++ "#" ++ id.name ++ "#" ++ id.uuid

/-- `localVolumeIdWriter` and `localVolumeIdReader`. -/
def format : Format Mesos.Message LocalVolumeId :=
  let fields : Fields Mesos.Message _ := (Fields.required "runSpecId" pathIdFormat).and
    ((Fields.required "containerPath" Format.plain).and
      (.required "uuid" Format.plain)
      (by decide)) (by decide)
  .record
    (fields.writing "persistenceId"
      (fun (runSpecId, name, uuid) => .string (idString ⟨runSpecId, name, uuid⟩)) (by decide))
    { toFun := fun id => (id.runSpecId, id.name, id.uuid)
      invFun := fun (runSpecId, name, uuid) => ⟨runSpecId, name, uuid⟩ }

end LocalVolumeId

namespace Reservation

def Timeout.Reason.string : Timeout.Reason → String
  | relaunchEscalationTimeout => "RelaunchEscalationTimeout"
  | reservationTimeout => "ReservationTimeout"

def Timeout.Reason.ofString : String → Option Timeout.Reason
  | "RelaunchEscalationTimeout" => some relaunchEscalationTimeout
  | "ReservationTimeout" => some reservationTimeout
  | _ => none

def timeoutFormat : Format Mesos.Message Timeout :=
  let fields : Fields Mesos.Message _ := (Fields.required "initiated" timestampFormat).and
    ((Fields.required "deadline" timestampFormat).and
      (.required "reason" (.text Timeout.Reason.string Timeout.Reason.ofString))
      (by decide)) (by decide)
  .record fields
    { toFun := fun timeout => (timeout.initiated, timeout.deadline, timeout.reason)
      invFun := fun (initiated, deadline, reason) => ⟨initiated, deadline, reason⟩ }

namespace State

def name : State → String
  | new _ => "new"
  | launched => "launched"
  | suspended => "suspended"

def timeout : State → Option Timeout
  | new timeout => timeout
  | launched | suspended => none

/-- `StateFormat`; a timeout of another state than a new one is dropped. -/
def format : Format Mesos.Message State :=
  let fields : Fields Mesos.Message _ := (Fields.required "name" Format.plain).and (.nullable "timeout" timeoutFormat)
    (by decide)
  (Format.object fields).collect (fun state => (state.name, state.timeout)) fun
    | ("new", timeout) => some (new timeout)
    | ("launched", _) => some launched
    | ("suspended", _) => some suspended
    | _ => none

end State

def idFormat : Format Mesos.Message Reservation.Id := .text Id.label Id.ofLabel

end Reservation

def reservationFormat : Format Mesos.Message Reservation :=
  let fields : Fields Mesos.Message _ := (Fields.required "volumeIds" LocalVolumeId.format.list).and
    ((Fields.required "state" Reservation.State.format).and
      (.required "id" Reservation.idFormat)
      (by decide)) (by decide)
  .record fields
    { toFun := fun reservation => (reservation.volumeIds, reservation.state, reservation.id)
      invFun := fun (volumeIds, state, id) => ⟨volumeIds, state, id⟩ }

/-! ## The storage model -/

/-- `state.Instance`. Only instances of older versions have no role. -/
structure StoredInstance where
  instanceId : InstanceId
  agentInfo : Option AgentInfo
  state : InstanceState
  tasksMap : Dict TaskId Task
  runSpecVersion : Timestamp
  reservation : Option Reservation
  role : Option Role

namespace StoredInstance

def fromCoreInstance (i : Instance) : StoredInstance where
  instanceId := i.instanceId
  agentInfo := i.agentInfo
  state := i.state
  tasksMap := i.tasksMap
  runSpecVersion := i.runSpecVersion
  reservation := i.reservation
  role := some i.role

/-- The instance with its run spec; without a role the conversion fails. -/
def toCoreInstance (stored : StoredInstance) (runSpec : RunSpec) : Option Instance :=
  stored.role.map fun role =>
    { instanceId := stored.instanceId
      agentInfo := stored.agentInfo
      state := stored.state
      tasksMap := stored.tasksMap
      runSpec := runSpec
      reservation := stored.reservation
      role := role }

/-- `instanceJsonWrites` and `instanceJsonReads`. -/
def format : Format Mesos.Message StoredInstance :=
  let fields : Fields Mesos.Message _ := (Fields.required "instanceId" instanceIdFormat).and
    ((Fields.optional "agentInfo" agentFormat).and
      ((Fields.required "tasksMap" tasksMapFormat).and
        ((Fields.required "runSpecVersion" timestampFormat).and
          ((Fields.required "state" instanceStateFormat).and
            ((Fields.optional "reservation" reservationFormat).and
              (.optional "role" Format.plain)
              (by decide)) (by decide)) (by decide)) (by decide)) (by decide)) (by decide)
  .record fields
    { toFun := fun i =>
        (i.instanceId, i.agentInfo, i.tasksMap, i.runSpecVersion, i.state, i.reservation, i.role)
      invFun := fun (instanceId, agentInfo, tasksMap, runSpecVersion, state, reservation, role) =>
        ⟨instanceId, agentInfo, state, tasksMap, runSpecVersion, reservation, role⟩ }

def toProto (i : StoredInstance) : Json Mesos.Message := format.writes i

def mergeFromProto (message : Json Mesos.Message) : Option StoredInstance := format.reads message

end StoredInstance

end Marathon
