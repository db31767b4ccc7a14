import Marathon.Instance.Decommissioned
import Marathon.Instance.IdRoundTrips
import Marathon.Instance.InstanceFormats

/-!
# Which instances come back

A stored instance comes back when all of the ids, timestamps and addresses in it do. An
address without a protocol does not, nor does an id that reads like another one.
-/

namespace Marathon

open Lib PathId InstanceUpdater InstanceUpdateOpResolver
open Lib.Json (Format Fields)

/-- What an instance is made of as far as it may not come back. The `version` is that of its
run spec, which is read but not used. -/
inductive Leaf
  | timestamp (value : Timestamp)
  | version (value : Timestamp)
  | path (value : AbsolutePathId)
  | instanceId (value : InstanceId)
  | taskId (value : TaskId)
  | reservationId (value : Reservation.Id)
  | address (value : Mesos.IPAddress)
  | port (value : ℤ)

namespace Leaf

/-- The format of a leaf reads back what it wrote; of a version it reads anything. -/
def RoundTrips : Leaf → Prop
  | timestamp value => timestampFormat.RoundTrips value
  | version value => (Timestamp.ofString value.string).isSome = true
  | path value => pathIdFormat.RoundTrips value
  | instanceId value => InstanceId.fromIdString value.idString = some value
  | taskId value => TaskId.parse value.idString = some value
  | reservationId value => Reservation.idFormat.RoundTrips value
  | address value => Mesos.IPAddress.format.RoundTrips value
  | port value => (Format.int : Format Mesos.Message ℤ).RoundTrips value

@[simp]
theorem roundTrips_timestamp {value : Timestamp} :
    (timestamp value).RoundTrips ↔ timestampFormat.RoundTrips value := .rfl

@[simp]
theorem roundTrips_path {id : AbsolutePathId} :
    (path id).RoundTrips ↔ pathIdFormat.RoundTrips id := .rfl

@[simp]
theorem roundTrips_instanceId {id : InstanceId} :
    (instanceId id).RoundTrips ↔ InstanceId.fromIdString id.idString = some id := .rfl

@[simp]
theorem roundTrips_taskId {id : TaskId} :
    (taskId id).RoundTrips ↔ TaskId.parse id.idString = some id := .rfl

@[simp]
theorem roundTrips_reservationId {id : Reservation.Id} :
    (reservationId id).RoundTrips ↔ Reservation.idFormat.RoundTrips id := .rfl

@[simp]
theorem roundTrips_address {value : Mesos.IPAddress} :
    (address value).RoundTrips ↔ Mesos.IPAddress.format.RoundTrips value := .rfl

@[simp]
theorem roundTrips_port {n : ℤ} :
    (port n).RoundTrips ↔ (Format.int : Format Mesos.Message ℤ).RoundTrips n := .rfl

/-- Timestamps in whole milliseconds, valid ids, protocols that there are, and ports that
are an `Int`. -/
def WellFormed : Leaf → Prop
  | timestamp value => value.instant % 1000000 = 0
  | version value => value.instant % 1000000 = 0
  | path value => validPathChars value = true
  | instanceId value => validPathChars value.runSpecId = true
  | taskId value => value.WellFormed
  | reservationId value => value.WellFormed
  | address value => ∀ protocol ∈ value.protocol, protocol ∈ Mesos.protocols
  | port value => Format.IsInt value

/-- The leaves that come back. A version before year 1 may be no date any more. -/
def ReadsBack : Leaf → Prop
  | timestamp value => 0 < (OffsetDateTime.utcDate value.instant).year
  | version value =>
    let date := OffsetDateTime.eraDate (OffsetDateTime.utcDate value.instant)
    CivilDate.ofEpochDay date.toEpochDay = date
  | path _ | port _ => True
  | instanceId value => value.runSpecId.isRoot = false
  | taskId value => value.ReadBack
  | reservationId value => value.ReadBack
  | address value => value.protocol.isSome = true ∧ value.ipAddress.isSome = true

end Leaf

/-! ## The formats of the leaves -/

theorem roundTrips_timestampFormat_iff {timestamp : Timestamp} :
    timestampFormat.RoundTrips timestamp ↔
      timestamp.instant % 1000000 = 0 ∧ 0 < (OffsetDateTime.utcDate timestamp.instant).year := by
  rw [← OffsetDateTime.parse_patternText_eq_some_iff, timestampFormat, Format.roundTrips_text_iff,
    Timestamp.ofString, Timestamp.string, Option.map_eq_some_iff]
  constructor
  · rintro ⟨instant, hinstant, rfl⟩
    exact hinstant
  · exact fun h => ⟨timestamp.instant, h, rfl⟩

theorem roundTrips_version_iff {version : Timestamp} :
    (Leaf.version version).RoundTrips ↔ ∃ value, timestampFormat.back version = some value := by
  rw [timestampFormat, Format.back_text, ← Option.isSome_iff_exists, Leaf.RoundTrips]

theorem isSome_ofString_string_iff {timestamp : Timestamp} :
    (Timestamp.ofString timestamp.string).isSome = true ↔ (Leaf.version timestamp).ReadsBack := by
  rw [Timestamp.ofString, Timestamp.string, OffsetDateTime.parse_patternText, Leaf.ReadsBack]
  split_ifs with hdate
  · exact iff_of_true rfl hdate
  · exact iff_of_false Bool.false_ne_true hdate

theorem roundTrips_pathIdFormat {id : AbsolutePathId} (h : validPathChars id) :
    pathIdFormat.RoundTrips id := by
  have hlength : 1 ≤ id.string.length := by
    rw [AbsolutePathId.string, String.length_append]
    exact Nat.le_add_right 1 _
  rw [pathIdFormat, Format.roundTrips_text_iff, Formats.minLength, if_pos hlength,
    ofString_string h]

theorem back_address (address : Mesos.IPAddress) :
    Mesos.IPAddress.format.back address =
      if address.getProtocol ∈ Mesos.protocols then
        some ⟨some address.getProtocol, some address.getIpAddress⟩
      else
        none := by
  have hnames : ("protocol" == "ipAddress") = false := by decide
  simp only [Format.back, Mesos.IPAddress.format, Format.collect, Format.object, Fields.and, Fields.required,
    Json.find, List.cons_append, List.nil_append, List.lookup_cons, beq_self_eq_true, hnames,
    Option.bind_some, Format.plain, Format.text, Mesos.protocolFormat, id]
  split_ifs with h
  · rfl
  · rfl

variable {address : Mesos.IPAddress} {i j : Instance} {tasksMap : Dict TaskId Task} {task : Task}
  {state : InstanceState} {oldState : Option Instance} {changes : List MarathonEvent}

theorem roundTrips_address_iff :
    Mesos.IPAddress.format.RoundTrips address ↔
      address.getProtocol ∈ Mesos.protocols ∧ address.protocol.isSome = true ∧
        address.ipAddress.isSome = true := by
  rw [Format.RoundTrips, back_address]
  obtain ⟨protocol, ipAddress⟩ := address
  cases protocol with
  | none => simp
  | some protocol =>
    cases ipAddress with
    | none => simp
    | some ipAddress =>
      rw [Mesos.IPAddress.getProtocol, Mesos.IPAddress.getIpAddress, Option.getD_some,
        Option.getD_some, Option.ite_none_right_eq_some]
      simp

theorem Leaf.roundTrips_iff {leaf : Leaf} (h : leaf.WellFormed) :
    leaf.RoundTrips ↔ leaf.ReadsBack := by
  cases leaf with
  | timestamp value => exact roundTrips_timestampFormat_iff.trans (and_iff_right h)
  | version value => exact isSome_ofString_string_iff
  | path value => exact iff_of_true (roundTrips_pathIdFormat h) trivial
  | instanceId value => exact fromIdString_idString_iff h
  | taskId value => exact TaskId.parse_idString_iff h
  | reservationId value => exact Reservation.Id.ofLabel_label_iff h
  | address value =>
    have hprotocol : value.getProtocol ∈ Mesos.protocols := by
      rw [Mesos.IPAddress.getProtocol]
      cases hvalue : value.protocol with
      | none => decide
      | some protocol => exact h protocol hvalue
    exact roundTrips_address_iff.trans (and_iff_right hprotocol)
  | port value => exact iff_of_true (Format.roundTrips_int h) trivial

/-! ## The leaves of an instance -/

def NetworkInfo.leaves (info : NetworkInfo) : List Leaf :=
  info.hostPorts.map .port ++ info.ipAddresses.map .address

def Task.Status.leaves (status : Task.Status) : List Leaf :=
  .timestamp status.stagedAt :: status.startedAt.toList.map .timestamp ++ status.networkInfo.leaves

def Task.leaves (task : Task) : List Leaf :=
  .taskId task.taskId :: .timestamp task.runSpecVersion :: task.status.leaves

def InstanceState.leaves (state : InstanceState) : List Leaf :=
  .timestamp state.since :: state.activeSince.toList.map .timestamp

def Reservation.Timeout.leaves (timeout : Timeout) : List Leaf :=
  [.timestamp timeout.initiated, .timestamp timeout.deadline]

def Reservation.leaves (reservation : Reservation) : List Leaf :=
  reservation.volumeIds.map (fun id => .path id.runSpecId) ++
    reservation.state.timeout.toList.flatMap Timeout.leaves ++ [.reservationId reservation.id]

def tasksMapLeaves (tasksMap : Dict TaskId Task) : List Leaf :=
  tasksMap.bindings.flatMap fun binding => .taskId binding.1 :: binding.2.leaves

def Instance.leaves (i : Instance) : List Leaf :=
  .instanceId i.instanceId :: .version i.runSpecVersion :: i.state.leaves ++
    tasksMapLeaves i.tasksMap ++ i.reservation.toList.flatMap Reservation.leaves

section Leaves

variable {P : Leaf → Prop}

theorem forall_leaves_iff :
    (∀ leaf ∈ i.leaves, P leaf) ↔
      P (.instanceId i.instanceId) ∧ P (.version i.runSpecVersion) ∧
        (∀ leaf ∈ i.state.leaves, P leaf) ∧ (∀ leaf ∈ tasksMapLeaves i.tasksMap, P leaf) ∧
          ∀ reservation ∈ i.reservation, ∀ leaf ∈ reservation.leaves, P leaf := by
  rw [Instance.leaves, List.forall_mem_append, List.forall_mem_append, List.forall_mem_cons,
    List.forall_mem_cons, List.forall_mem_flatMap]
  simp [and_assoc]

theorem forall_tasksMapLeaves_iff :
    (∀ leaf ∈ tasksMapLeaves tasksMap, P leaf) ↔
      ∀ taskId task, tasksMap.lookup taskId = some task →
        P (.taskId taskId) ∧ ∀ leaf ∈ task.leaves, P leaf := by
  rw [tasksMapLeaves, List.forall_mem_flatMap, Prod.forall]
  simp only [List.forall_mem_cons, Dict.mem_bindings]

theorem forall_taskLeaves_iff :
    (∀ leaf ∈ task.leaves, P leaf) ↔
      P (.taskId task.taskId) ∧ P (.timestamp task.runSpecVersion) ∧
        P (.timestamp task.status.stagedAt) ∧
          (∀ startedAt ∈ task.status.startedAt, P (.timestamp startedAt)) ∧
            (∀ port ∈ task.status.networkInfo.hostPorts, P (.port port)) ∧
              ∀ address ∈ task.status.networkInfo.ipAddresses, P (.address address) := by
  simp [Task.leaves, Task.Status.leaves, NetworkInfo.leaves, or_imp, forall_and]

theorem forall_stateLeaves_iff :
    (∀ leaf ∈ state.leaves, P leaf) ↔
      P (.timestamp state.since) ∧
        ∀ activeSince ∈ state.activeSince, P (.timestamp activeSince) := by
  simp [InstanceState.leaves]

end Leaves

/-! ## The formats of an instance -/

@[simp]
theorem roundTrips_condition (condition : Condition) : Condition.format.RoundTrips condition := by
  cases condition <;> rfl

@[simp]
theorem roundTrips_goal (goal : Goal) : Goal.format.RoundTrips goal := by
  cases goal <;> rfl

@[simp]
theorem roundTrips_attribute (value : Mesos.Attribute) :
    Mesos.attributeFormat.RoundTrips value := rfl

@[simp]
theorem roundTrips_taskStatus (status : Mesos.TaskStatus) :
    Mesos.taskStatusFormat.RoundTrips status := rfl

@[simp]
theorem roundTrips_agent (agent : AgentInfo) : agentFormat.RoundTrips agent := by
  simp [agentFormat]

theorem roundTrips_instanceIdFormat_iff {id : InstanceId} :
    instanceIdFormat.RoundTrips id ↔ InstanceId.fromIdString id.idString = some id := by
  simp [instanceIdFormat]

theorem roundTrips_instanceState_iff :
    instanceStateFormat.RoundTrips state ↔ ∀ leaf ∈ state.leaves, leaf.RoundTrips := by
  simp [instanceStateFormat, InstanceState.leaves]

theorem roundTrips_taskId_iff {id : TaskId} :
    taskIdFormat.RoundTrips id ↔ TaskId.parse id.idString = some id := by
  have huuid : ∀ uuid : UUID, 3 ≤ uuid.string.length := by
    intro uuid
    rw [← String.length_toList, UUID.toList_string, UUID.groups]
    simp only [List.map_cons, List.intercalate_cons_cons, List.length_append, List.length_take,
      List.length_drop, UUID.length_hexDigits]
    omega
  have hlength : 3 ≤ id.idString.length := by
    cases id with
    | legacyId runSpecId separator uuid =>
      have h := huuid uuid
      simp only [TaskId.idString, String.length_append]
      omega
    | legacyResidentId runSpecId separator uuid attempt =>
      have h := huuid uuid
      simp only [TaskId.idString, String.length_append]
      omega
    | ephemeralTaskId instanceId containerName =>
      have h := huuid instanceId.uuid
      simp only [TaskId.idString, InstanceId.idString, String.length_append]
      omega
    | taskIdWithIncarnation instanceId containerName incarnation =>
      have h := huuid instanceId.uuid
      simp only [TaskId.idString, InstanceId.idString, String.length_append]
      omega
  rw [taskIdFormat, Format.roundTrips_text_iff, Formats.minLength, if_pos hlength]

theorem roundTrips_networkInfo_iff {info : NetworkInfo} :
    taskStatusNetworkInfoFormat.RoundTrips info ↔ ∀ leaf ∈ info.leaves, leaf.RoundTrips := by
  simp [taskStatusNetworkInfoFormat, NetworkInfo.leaves, or_imp, forall_and]

theorem roundTrips_status_iff {status : Task.Status} :
    Task.statusFormat.RoundTrips status ↔ ∀ leaf ∈ status.leaves, leaf.RoundTrips := by
  simp [Task.statusFormat, Task.Status.leaves, roundTrips_networkInfo_iff, or_imp,
    forall_and]

theorem roundTrips_task_iff :
    taskFormat.RoundTrips task ↔ ∀ leaf ∈ task.leaves, leaf.RoundTrips := by
  simp [taskFormat, Task.leaves, roundTrips_status_iff, roundTrips_taskId_iff]

theorem roundTrips_tasksMap_iff :
    tasksMapFormat.RoundTrips tasksMap ↔ ∀ leaf ∈ tasksMapLeaves tasksMap, leaf.RoundTrips := by
  rw [tasksMapLeaves, List.forall_mem_flatMap]
  simp [tasksMapFormat, roundTrips_task_iff]

theorem roundTrips_localVolumeId_iff {id : LocalVolumeId} :
    LocalVolumeId.format.RoundTrips id ↔ (Leaf.path id.runSpecId).RoundTrips := by
  simp [LocalVolumeId.format]

theorem roundTrips_reason (reason : Reservation.Timeout.Reason) :
    Reservation.Timeout.Reason.ofString reason.string = some reason := by
  cases reason <;> rfl

theorem roundTrips_timeout_iff {timeout : Reservation.Timeout} :
    Reservation.timeoutFormat.RoundTrips timeout ↔ ∀ leaf ∈ timeout.leaves, leaf.RoundTrips := by
  simp [Reservation.timeoutFormat, Reservation.Timeout.leaves, roundTrips_reason]

theorem roundTrips_reservationState_iff {state : Reservation.State} :
    Reservation.State.format.RoundTrips state ↔
      ∀ timeout ∈ state.timeout, Reservation.timeoutFormat.RoundTrips timeout := by
  cases state with
  | new timeout =>
    have hback : Reservation.State.format.back (.new timeout) =
        ((Fields.nullable "timeout" Reservation.timeoutFormat).back timeout).map .new := by
      simp only [Reservation.State.format, Format.back_collect, Format.back_object,
        Fields.back_and, Fields.back_required, Reservation.State.timeout]
      cases (Fields.nullable "timeout" Reservation.timeoutFormat).back timeout <;> rfl
    rw [Format.RoundTrips, hback, Option.map_eq_some_iff]
    simp only [Reservation.State.new.injEq, exists_eq_right]
    exact Fields.roundTrips_nullable_iff
  | launched => exact iff_of_true rfl fun timeout h => absurd h (Option.not_mem_none timeout)
  | suspended => exact iff_of_true rfl fun timeout h => absurd h (Option.not_mem_none timeout)

theorem roundTrips_reservation_iff {reservation : Reservation} :
    reservationFormat.RoundTrips reservation ↔ ∀ leaf ∈ reservation.leaves, leaf.RoundTrips := by
  rw [Reservation.leaves, List.forall_mem_append, List.forall_mem_append, List.forall_mem_flatMap]
  simp [reservationFormat, roundTrips_localVolumeId_iff, roundTrips_reservationState_iff,
    roundTrips_timeout_iff, and_assoc]

theorem toCoreInstance_eq_some_iff {stored : StoredInstance} :
    stored.toCoreInstance i.runSpec = some i ↔
      stored = { StoredInstance.fromCoreInstance i with runSpecVersion := stored.runSpecVersion } := by
  obtain ⟨instanceId, agentInfo, state, tasksMap, version, reservation, role⟩ := stored
  obtain ⟨instanceId', agentInfo', state', tasksMap', runSpec, reservation', role'⟩ := i
  simp only [StoredInstance.toCoreInstance, StoredInstance.fromCoreInstance,
    Option.map_eq_some_iff, Instance.mk.injEq, StoredInstance.mk.injEq, true_and]
  constructor
  · rintro ⟨role, rfl, rfl, rfl, rfl, rfl, rfl, rfl⟩
    exact ⟨rfl, rfl, rfl, rfl, rfl, rfl⟩
  · rintro ⟨rfl, rfl, rfl, rfl, rfl, rfl⟩
    exact ⟨role', rfl, rfl, rfl, rfl, rfl, rfl, rfl⟩

theorem back_storedInstance_iff {stored result : StoredInstance} :
    StoredInstance.format.back stored = some result ↔
      instanceIdFormat.back stored.instanceId = some result.instanceId ∧
      (Fields.optional "agentInfo" agentFormat).back stored.agentInfo = some result.agentInfo ∧
      tasksMapFormat.back stored.tasksMap = some result.tasksMap ∧
      timestampFormat.back stored.runSpecVersion = some result.runSpecVersion ∧
      instanceStateFormat.back stored.state = some result.state ∧
      (Fields.optional "reservation" reservationFormat).back stored.reservation =
        some result.reservation ∧
      (Fields.optional "role" (Format.plain : Format Mesos.Message String)).back stored.role =
        some result.role := by
  simp only [StoredInstance.format, Format.back_record, Fields.back_and, Fields.back_required,
    Option.bind_eq_some_iff, Option.map_eq_some_iff, Option.some.injEq]
  constructor
  · rintro ⟨_, ⟨id, hid, _, ⟨agent, hagent, _, ⟨tasks, htasks, _, ⟨version, hversion, _,
      ⟨state, hstate, _, ⟨reservation, hreservation, role, hrole, rfl⟩, rfl⟩, rfl⟩, rfl⟩, rfl⟩, rfl⟩,
      rfl⟩
    exact ⟨hid, hagent, htasks, hversion, hstate, hreservation, hrole⟩
  · rintro ⟨hid, hagent, htasks, hversion, hstate, hreservation, hrole⟩
    exact ⟨_, ⟨_, hid, _, ⟨_, hagent, _, ⟨_, htasks, _, ⟨_, hversion, _, ⟨_, hstate, _,
      ⟨_, hreservation, _, hrole, rfl⟩, rfl⟩, rfl⟩, rfl⟩, rfl⟩, rfl⟩, rfl⟩

/-- The instance as it is decoded from its stored form, with the run spec it had. -/
def Instance.restored (i : Instance) : Option Instance := do
  let stored ← StoredInstance.mergeFromProto (StoredInstance.fromCoreInstance i).toProto
  stored.toCoreInstance i.runSpec

theorem restored_iff : i.restored = some i ↔ ∀ leaf ∈ i.leaves, leaf.RoundTrips := by
  have hleaves : (∀ leaf ∈ i.leaves, leaf.RoundTrips) ↔
      InstanceId.fromIdString i.instanceId.idString = some i.instanceId ∧
        (Leaf.version i.runSpecVersion).RoundTrips ∧ instanceStateFormat.RoundTrips i.state ∧
          tasksMapFormat.RoundTrips i.tasksMap ∧
            ∀ reservation ∈ i.reservation, reservationFormat.RoundTrips reservation := by
    rw [forall_leaves_iff]
    simp only [roundTrips_instanceState_iff, roundTrips_tasksMap_iff, roundTrips_reservation_iff,
      Leaf.roundTrips_instanceId]
  rw [hleaves]
  have hmerge : StoredInstance.mergeFromProto (StoredInstance.fromCoreInstance i).toProto =
      StoredInstance.format.back (StoredInstance.fromCoreInstance i) := rfl
  simp only [Instance.restored, Option.bind_eq_bind, Option.bind_eq_some_iff, hmerge,
    toCoreInstance_eq_some_iff, back_storedInstance_iff]
  constructor
  · rintro ⟨⟨id, agent, state, tasks, version, reservation, role⟩,
      ⟨hid, -, htasks, hversion, hstate, hreservation, -⟩, heq⟩
    simp only [StoredInstance.fromCoreInstance, StoredInstance.mk.injEq] at heq
    obtain ⟨rfl, rfl, rfl, rfl, -, rfl, rfl⟩ := heq
    exact ⟨roundTrips_instanceIdFormat_iff.mp hid, roundTrips_version_iff.mpr ⟨version, hversion⟩,
      hstate, htasks, Fields.roundTrips_optional_iff.mp hreservation⟩
  · rintro ⟨hid, hversion, hstate, htasks, hreservation⟩
    obtain ⟨version, hversion⟩ := roundTrips_version_iff.mp hversion
    have hagent : (Fields.optional "agentInfo" agentFormat).RoundTrips i.agentInfo :=
      Fields.roundTrips_optional_iff.mpr fun agent _ => roundTrips_agent agent
    have hrole : (Fields.optional "role" (Format.plain : Format Mesos.Message String)).RoundTrips
        (some i.role) := Fields.roundTrips_optional_iff.mpr fun role _ => Format.roundTrips_plain role
    exact ⟨{ StoredInstance.fromCoreInstance i with runSpecVersion := version },
      ⟨roundTrips_instanceIdFormat_iff.mpr hid, hagent, htasks, hversion, hstate,
        Fields.roundTrips_optional_iff.mpr hreservation, hrole⟩, rfl⟩

/-! ## The leaves that operations bring in -/

/-- The addresses of a status that a task takes over. -/
def Mesos.TaskStatus.leaves (status : TaskStatus) : List Leaf :=
  status.resolveIpAddresses.map .address

def InstanceUpdateOperation.leaves : InstanceUpdateOperation → List Leaf
  | schedule i | revert i => i.leaves
  | provision _ _ runSpec tasks now =>
    .version runSpec.version :: .timestamp now :: tasksMapLeaves tasks
  | rescheduleReserved _ runSpec => [.version runSpec.version]
  | mesosUpdate _ _ mesosStatus now => .timestamp now :: mesosStatus.leaves
  | reserve _ reservation _ => reservation.leaves
  | reservationTimeout _ | changeGoal .. | unreserve _ | forceExpunge _ => []

/-- The leaves of an operation and of the time at which it is applied. -/
def eventLeaves (event : Timestamp × InstanceUpdateOperation) : List Leaf :=
  .timestamp event.1 :: event.2.leaves

section Operations

variable {P : Leaf → Prop} {now : Timestamp} {status : Mesos.TaskStatus}

theorem leaves_taskUpdate {task' : Task} {hasReservation : Bool} {condition : Condition}
    (h : task.update hasReservation condition status now = .update task')
    (htask : ∀ leaf ∈ task.leaves, P leaf) (hnow : P (.timestamp now))
    (hstatus : ∀ leaf ∈ status.leaves, P leaf) : ∀ leaf ∈ task'.leaves, P leaf := by
  have haddresses : ∀ address ∈ status.resolveIpAddresses, P (.address address) := by
    simpa [Mesos.TaskStatus.leaves] using hstatus
  rw [forall_taskLeaves_iff] at htask ⊢
  obtain ⟨hid, hversion, hstaged, hstarted, hports, hold⟩ := htask
  have hstartedNow : ∀ startedAt ∈ some now, P (.timestamp startedAt) := by
    rintro startedAt ⟨⟩
    exact hnow
  unfold Task.update at h
  split_ifs at h with hterminal hrunning hnew hscheduled hactive
  · cases h
    exact ⟨hid, hversion, hstaged, hstartedNow, hports, haddresses⟩
  · cases h
    exact ⟨hid, hversion, hstaged, hstarted, hports, hold⟩
  · cases h
    exact ⟨hid, hversion, hstaged, hstartedNow, hports, hold⟩
  · split at h
    · cases h
      exact ⟨hid, hversion, hstaged, hstarted, hports, haddresses⟩
    · cases h

theorem leaves_transitionTo {tasks : List Task}
    (strategy : UnreachableStrategy) (goal : Goal) (hstate : ∀ leaf ∈ state.leaves, P leaf)
    (htasks : ∀ task ∈ tasks, ∀ leaf ∈ task.leaves, P leaf) (hnow : P (.timestamp now)) :
    ∀ leaf ∈ (InstanceState.transitionTo (some state) tasks now strategy goal).leaves, P leaf := by
  unfold InstanceState.transitionTo
  dsimp only
  split_ifs
  · exact hstate
  · rw [forall_stateLeaves_iff]
    refine ⟨hnow, fun activeSince hactive => ?_⟩
    obtain ⟨task, htask, hstarted⟩ := List.mem_filterMap.mp (List.min?_mem hactive)
    exact (forall_taskLeaves_iff.mp (htasks task htask)).2.2.2.1 activeSince hstarted

theorem leaves_updatedReservation
    (h : ∀ reservation ∈ i.reservation, ∀ leaf ∈ reservation.leaves, P leaf) :
    ∀ reservation ∈ InstanceUpdater.updatedReservation i task, ∀ leaf ∈ reservation.leaves, P leaf := by
  unfold InstanceUpdater.updatedReservation
  split_ifs
  · intro reservation hreservation leaf hleaf
    obtain ⟨old, hold, rfl⟩ := Option.map_eq_some_iff.mp hreservation
    apply h old hold leaf
    simp only [Reservation.leaves, Reservation.State.timeout, List.mem_append] at hleaf ⊢
    simp only [Option.toList_none, List.flatMap_nil, List.not_mem_nil, or_false] at hleaf
    rcases hleaf with hpath | hid
    · exact .inl (.inl hpath)
    · exact .inr hid
  · exact h

theorem leaves_applyTaskUpdate (hi : ∀ leaf ∈ i.leaves, P leaf)
    (htask : ∀ leaf ∈ task.leaves, P leaf) (hnow : P (.timestamp now)) :
    ∀ leaf ∈ (InstanceUpdater.applyTaskUpdate i task now).leaves, P leaf := by
  rw [forall_leaves_iff] at hi ⊢
  obtain ⟨hid, hversion, hstate, htasks, hreservation⟩ := hi
  have hupdated : ∀ leaf ∈ tasksMapLeaves (i.tasksMap.updated task.taskId task), P leaf := by
    rw [forall_tasksMapLeaves_iff] at htasks ⊢
    intro taskId other hother
    rw [Dict.lookup_updated] at hother
    split_ifs at hother with hsame
    · cases hother
      rw [hsame]
      exact ⟨(forall_taskLeaves_iff.mp htask).1, htask⟩
    · exact htasks taskId other hother
  refine ⟨hid, hversion, leaves_transitionTo _ _ hstate ?_ hnow, hupdated,
    leaves_updatedReservation hreservation⟩
  intro other hother
  obtain ⟨taskId, hlookup⟩ := Dict.mem_values.mp hother
  exact (forall_tasksMapLeaves_iff.mp hupdated taskId other hlookup).2

theorem leaves_instanceUpdateEffectForTask
    (h : instanceUpdateEffectForTask i task now = .update j oldState changes)
    (hi : ∀ leaf ∈ i.leaves, P leaf) (htask : ∀ leaf ∈ task.leaves, P leaf)
    (hnow : P (.timestamp now)) : ∀ leaf ∈ j.leaves, P leaf := by
  have hupdated := leaves_applyTaskUpdate hi htask hnow
  unfold instanceUpdateEffectForTask at h
  dsimp only at h
  split_ifs at h with hsame hunreachable hexpunge habandon
  · cases h
    rw [forall_leaves_iff] at hupdated ⊢
    obtain ⟨hid, hversion, hstate, htasks, -⟩ := hupdated
    exact ⟨hid, hversion, hstate, htasks, nofun⟩
  · cases h
    exact hupdated

theorem leaves_mesosUpdate {condition : Condition}
    (h : mesosUpdate i condition status now = .ok (.update j oldState changes))
    (hi : ∀ leaf ∈ i.leaves, P leaf) (hnow : P (.timestamp now))
    (hstatus : ∀ leaf ∈ status.leaves, P leaf) : ∀ leaf ∈ j.leaves, P leaf := by
  have htasks : ∀ taskId task, i.tasksMap.lookup taskId = some task → ∀ leaf ∈ task.leaves, P leaf :=
    fun taskId task hlookup =>
      (forall_tasksMapLeaves_iff.mp (forall_leaves_iff.mp hi).2.2.2.1 taskId task hlookup).2
  obtain ⟨cause, hfailure⟩ | hnoop | ⟨updatedTask, hreports, heffect⟩ := mesosUpdate_eq_ok h
  · cases hfailure
  · cases hnoop
  · refine leaves_instanceUpdateEffectForTask heffect.symm hi ?_ hnow
    cases hreports with
    | updated hid htask hupdate => exact leaves_taskUpdate hupdate (htasks _ _ htask) hnow hstatus
    | unchanged hid htask => exact htasks _ _ htask

theorem leaves_resolve {clock : Timestamp} {m : Option Instance} {op : InstanceUpdateOperation}
    (h : resolve clock m op = .ok (.update j oldState changes))
    (hm : ∀ i ∈ m, ∀ leaf ∈ i.leaves, P leaf) (hclock : P (.timestamp clock))
    (hop : ∀ leaf ∈ op.leaves, P leaf) : ∀ leaf ∈ j.leaves, P leaf := by
  unfold resolve at h
  cases op with
  | schedule i =>
    cases m with
    | none =>
      cases Except.ok.inj h
      exact hop
    | some existing => cases h
  | revert i =>
    cases Except.ok.inj h
    exact hop
  | provision id agentInfo runSpec tasks now =>
    obtain ⟨-, hfailure⟩ | ⟨i, rfl, hprovision⟩ := updateExistingInstance_eq_ok h
    · cases hfailure
    · obtain ⟨hid, -, -, -, hreservation⟩ := forall_leaves_iff.mp (hm i rfl)
      rw [InstanceUpdateOperation.leaves, List.forall_mem_cons, List.forall_mem_cons] at hop
      obtain ⟨hversion, hnow, htasks⟩ := hop
      unfold Instance.provisioned at hprovision
      split_ifs at hprovision
      · cases Except.ok.inj hprovision
        exact forall_leaves_iff.mpr
          ⟨hid, hversion, forall_stateLeaves_iff.mpr ⟨hnow, nofun⟩, htasks, hreservation⟩
      · cases hprovision
  | rescheduleReserved id runSpec =>
    obtain ⟨-, hfailure⟩ | ⟨i, rfl, hreschedule⟩ := updateExistingInstance_eq_ok h
    · cases hfailure
    · obtain ⟨hid, -, -, htasks, hreservation⟩ := forall_leaves_iff.mp (hm i rfl)
      cases Except.ok.inj hreschedule
      exact forall_leaves_iff.mpr
        ⟨hid, hop _ List.mem_cons_self, forall_stateLeaves_iff.mpr ⟨hclock, nofun⟩, htasks,
          hreservation⟩
  | mesosUpdate i condition status now =>
    obtain ⟨-, hfailure⟩ | ⟨existing, rfl, hupdate⟩ := updateExistingInstance_eq_ok h
    · cases hfailure
    · rw [InstanceUpdateOperation.leaves, List.forall_mem_cons] at hop
      exact leaves_mesosUpdate hupdate (hm existing rfl) hop.1 hop.2
  | reservationTimeout id =>
    obtain ⟨-, hfailure⟩ | ⟨i, rfl, htimeout⟩ := updateExistingInstance_eq_ok h
    · cases hfailure
    · unfold InstanceUpdater.reservationTimeout at htimeout
      split_ifs at htimeout
      · cases htimeout
      · cases htimeout
  | changeGoal id goal =>
    obtain ⟨-, hfailure⟩ | ⟨i, rfl, hchange⟩ := updateExistingInstance_eq_ok h
    · cases hfailure
    · unfold InstanceUpdater.changeGoal at hchange
      dsimp only at hchange
      split_ifs at hchange
      · cases hchange
      · cases Except.ok.inj hchange
        exact hm i rfl
  | reserve id reservation agentInfo =>
    obtain ⟨-, hfailure⟩ | ⟨i, rfl, hreserve⟩ := updateExistingInstance_eq_ok h
    · cases hfailure
    · obtain ⟨hid, hversion, hstate, htasks, -⟩ := forall_leaves_iff.mp (hm i rfl)
      cases Except.ok.inj hreserve
      refine forall_leaves_iff.mpr ⟨hid, hversion, hstate, htasks, ?_⟩
      rintro reserved ⟨⟩
      exact hop
  | unreserve id =>
    obtain ⟨-, hfailure⟩ | ⟨i, rfl, hunreserve⟩ := updateExistingInstance_eq_ok h
    · cases hfailure
    · unfold InstanceUpdater.unreserve at hunreserve
      split_ifs at hunreserve
      cases hunreserve
  | forceExpunge id =>
    cases m with
    | none => cases h
    | some existing => cases h

theorem leaves_stored {events : List (Timestamp × InstanceUpdateOperation)}
    (hevents : ∀ event ∈ events, ∀ leaf ∈ eventLeaves event, P leaf) :
    ∀ i ∈ stored none events, ∀ leaf ∈ i.leaves, P leaf := by
  induction events using List.reverseRecOn with
  | nil =>
    intro i hi
    cases hi
  | append_singleton events event ih =>
    have hbefore := ih fun e he => hevents e (List.mem_append_left _ he)
    have hevent := hevents event (List.mem_append_right events (List.mem_singleton_self event))
    rw [eventLeaves, List.forall_mem_cons] at hevent
    intro j hj
    rw [stored_append] at hj
    obtain hold | ⟨oldState, changes, heffect⟩ := exists_update_of_step hj
    · exact hbefore j hold
    · exact leaves_resolve heffect hbefore hevent.1 hevent.2

end Operations

/-- **A stored instance comes back exactly when none of its ids reads like another one, all
addresses of its tasks have a protocol and a text, and its timestamps are from year 1 on.** -/
theorem restored_stored_iff {events : List (Timestamp × InstanceUpdateOperation)} {i : Instance}
    (hevents : ∀ event ∈ events, ∀ leaf ∈ eventLeaves event, leaf.WellFormed)
    (hi : stored none events = some i) :
    i.restored = some i ↔ ∀ leaf ∈ i.leaves, leaf.ReadsBack := by
  rw [restored_iff]
  exact forall₂_congr fun leaf hleaf => Leaf.roundTrips_iff (leaves_stored hevents i hi leaf hleaf)

namespace DockerAddress

/-! ## An address without a protocol -/

def runSpec : RunSpec := .app (plainApp ⟨["web"]⟩ ∅)

def instanceId : InstanceId := ⟨⟨["web"]⟩, .instance, ⟨0⟩⟩

def taskId : TaskId := .ofContainer instanceId none

def tasks : Dict TaskId Task :=
  Dict.ofBindings [(taskId, Tasks.provisionedTask taskId ⟨"agent", [31000], []⟩ ⟨0⟩ ⟨2000000⟩)]

/-- An instance whose task reports the address when it starts to run. -/
def launchRun (address : Mesos.IPAddress) : List (Timestamp × InstanceUpdateOperation) :=
  [(⟨1000000⟩, .schedule (.scheduled runSpec instanceId ⟨1000000⟩)),
    (⟨2000000⟩, .provision instanceId plainAgent runSpec tasks ⟨2000000⟩),
    (⟨3000000⟩, .mesosUpdateOf (.scheduled runSpec instanceId ⟨1000000⟩)
      { plainStatus taskId .running with containerStatus := some [[address]] } ⟨3000000⟩)]

theorem wellFormed_taskId : taskId.WellFormed := by
  have hpath : validPathChars instanceId.runSpecId = true := by decide
  exact ⟨hpath, nofun, by decide, by decide⟩

theorem wellFormed_tasks : ∀ leaf ∈ tasksMapLeaves tasks, leaf.WellFormed := by
  rw [forall_tasksMapLeaves_iff]
  intro id task hlookup
  have hentry := (Dict.lookup_ofBindings_spec _ id).1 task hlookup
  cases List.mem_singleton.mp hentry
  have hport : Format.IsInt 31000 := by decide
  rw [forall_taskLeaves_iff]
  simp [Tasks.provisionedTask, Leaf.WellFormed, wellFormed_taskId, hport]

theorem wellFormed_scheduled :
    ∀ leaf ∈ (Instance.scheduled runSpec instanceId ⟨1000000⟩).leaves, leaf.WellFormed := by
  have hpath : validPathChars instanceId.runSpecId = true := by decide
  rw [forall_leaves_iff, forall_stateLeaves_iff, forall_tasksMapLeaves_iff]
  refine ⟨hpath, rfl, ⟨rfl, ?_⟩, ?_, ?_⟩
  · intro activeSince hactive
    cases hactive
  · intro id task htask
    cases htask
  · intro reservation hreservation
    cases hreservation

theorem wellFormed_launchRun (h : (Leaf.address address).WellFormed) :
    ∀ event ∈ launchRun address, ∀ leaf ∈ eventLeaves event, leaf.WellFormed := by
  have hmillis : ∀ n : ℤ, n % 1000000 = 0 → (Leaf.timestamp ⟨n⟩).WellFormed := fun _ hn => hn
  have hversion : (Leaf.version runSpec.version).WellFormed := by
    change runSpec.version.instant % 1000000 = 0
    decide
  have hstatus : ∀ leaf ∈ Mesos.TaskStatus.leaves
      { plainStatus taskId .running with containerStatus := some [[address]] },
      leaf.WellFormed := by
    intro leaf hleaf
    rw [List.mem_singleton.mp hleaf]
    exact h
  intro event hevent
  simp only [launchRun, List.mem_cons, List.not_mem_nil, or_false] at hevent
  rw [eventLeaves, List.forall_mem_cons]
  rcases hevent with rfl | rfl | rfl
  · exact ⟨hmillis 1000000 (by decide), wellFormed_scheduled⟩
  · refine ⟨hmillis 2000000 (by decide), ?_⟩
    rw [InstanceUpdateOperation.leaves, List.forall_mem_cons, List.forall_mem_cons]
    exact ⟨hversion, hmillis 2000000 (by decide), wellFormed_tasks⟩
  · refine ⟨hmillis 3000000 (by decide), ?_⟩
    rw [InstanceUpdateOperation.mesosUpdateOf, InstanceUpdateOperation.leaves, List.forall_mem_cons]
    exact ⟨hmillis 3000000 (by decide), hstatus⟩

def hasAddress (address : Mesos.IPAddress) (i : Instance) : Bool :=
  i.tasksMap.bindings.any fun binding => binding.2.status.networkInfo.ipAddresses.any (· = address)

theorem mem_leaves_of_hasAddress (h : hasAddress address i) : .address address ∈ i.leaves := by
  obtain ⟨⟨taskId, task⟩, hbinding, hany⟩ := List.any_eq_true.mp h
  obtain ⟨other, hother, heq⟩ := List.any_eq_true.mp hany
  obtain rfl := of_decide_eq_true heq
  have hleaf : .address other ∈ task.leaves := by
    simp [Task.leaves, Task.Status.leaves, NetworkInfo.leaves, hother]
  have htasks : .address other ∈ tasksMapLeaves i.tasksMap :=
    List.mem_flatMap.mpr ⟨(taskId, task), hbinding, List.mem_cons_of_mem _ hleaf⟩
  simp [Instance.leaves, htasks]

/-- With a protocol in the status the instance comes back as far as its leaves do. -/
theorem exists_stored_iff : ∃ i, stored none (launchRun ⟨some "IPv4", some "172.17.0.2"⟩) = some i ∧
    (i.restored = some i ↔ ∀ leaf ∈ i.leaves, leaf.ReadsBack) := by
  have hstored : (stored none (launchRun ⟨some "IPv4", some "172.17.0.2"⟩)).isSome = true := by
    decide +kernel
  obtain ⟨i, hi⟩ := Option.isSome_iff_exists.mp hstored
  have haddress : (Leaf.address ⟨some "IPv4", some "172.17.0.2"⟩).WellFormed := by
    rintro protocol ⟨⟩
    exact List.mem_cons_self
  exact ⟨i, hi, restored_stored_iff (wellFormed_launchRun haddress) hi⟩

/-- The executor of Docker sets no protocol: the address comes back with one. -/
theorem not_forall_restored :
    ¬∀ (events : List (Timestamp × InstanceUpdateOperation)) (i : Instance),
      (∀ event ∈ events, ∀ leaf ∈ eventLeaves event, leaf.WellFormed) →
        stored none events = some i → i.restored = some i := by
  intro h
  have hstored : (stored none (launchRun ⟨none, some "172.17.0.2"⟩)).any
      (hasAddress ⟨none, some "172.17.0.2"⟩) = true := by decide +kernel
  obtain ⟨i, hi, haddress⟩ := (Option.any_eq_true _ _).mp hstored
  have haddressWell : (Leaf.address ⟨none, some "172.17.0.2"⟩).WellFormed := by
    intro protocol hprotocol
    cases hprotocol
  have hrestored := h _ i (wellFormed_launchRun haddressWell) hi
  have hleaf := restored_iff.mp hrestored _ (mem_leaves_of_hasAddress haddress)
  exact Bool.false_ne_true (roundTrips_address_iff.mp hleaf).2.1

end DockerAddress

end Marathon
