import Marathon.Instance.InstanceUpdate

/-!
# Which tasks are replaced

An instance that is scheduled is provisioned again, and its tasks are replaced. They are all
terminal, unless one of them has failed: then the whole instance counts as failed.
-/

namespace Marathon

open Lib InstanceState

/-! ## Tasks that may be replaced -/

/-- Every task is terminal, or has a failed sibling that stands before it in the hierarchy. -/
def Replaceable (tasks : List Task) : Prop :=
  ∀ task ∈ tasks, task.isTerminal ∨ ∃ sibling ∈ tasks, sibling.status.condition.isFailure ∧
    conditionHierarchy sibling.status.condition < conditionHierarchy task.status.condition

variable {tasks : List Task} {now : Timestamp} {effect : InstanceUpdateEffect}
  {maybeInstance : Option Instance}

theorem replaceable_of_forall_isTerminal (h : ∀ task ∈ tasks, task.isTerminal) :
    Replaceable tasks :=
  fun task htask => .inl (h task htask)

theorem Replaceable.isTerminal_of_length_le_one (h : Replaceable tasks)
    (hlength : tasks.length ≤ 1) {task : Task} (htask : task ∈ tasks) : task.isTerminal := by
  rcases h task htask with hterminal | ⟨sibling, hsibling, _, hlt⟩
  · exact hterminal
  · obtain ⟨only, rfl⟩ : ∃ only, tasks = [only] :=
      List.length_eq_one_iff.mp (Nat.le_antisymm hlength (List.length_pos_of_mem htask))
    rw [List.mem_singleton.mp htask, List.mem_singleton.mp hsibling] at hlt
    exact absurd hlt (lt_irrefl _)

theorem isFailure_of_le {c d : Condition} (hc : c.isTerminal) (hd : ¬d.isTerminal)
    (h : conditionHierarchy c ≤ conditionHierarchy d) :
    c.isFailure ∧ conditionHierarchy c < conditionHierarchy d := by
  revert hc hd h
  cases c <;> cases d <;> decide

theorem replaceable_of_conditionFromTasks
    {strategy : UnreachableStrategy} (h : (conditionFromTasks tasks now strategy).isTerminal) :
    Replaceable tasks := by
  intro task htask
  obtain ⟨hle, hinactive | ⟨sibling, hsibling, hcondition⟩⟩ :=
    conditionFromTasks_spec htask now strategy
  · rw [hinactive] at h
    cases h
  by_cases hterminal : task.isTerminal
  · exact .inl hterminal
  · rw [← hcondition] at h hle
    exact .inr ⟨sibling, hsibling, isFailure_of_le h hterminal hle⟩

/-! ## How operations are issued -/

/-- How Marathon issues the operations: new instances have no tasks, tasks are provisioned in
that condition, the condition of a status update is that of its status, and only an instance
that is terminal is rescheduled. Reverting is left out: it puts back any state. -/
def InstanceUpdateOperation.Issued (maybeInstance : Option Instance) :
    InstanceUpdateOperation → Prop
  | .schedule i => i.tasksMap.entries = []
  | .provision _ _ _ tasks _ => ∀ task ∈ tasks.values, task.status.condition = .provisioned
  | .mesosUpdate _ condition mesosStatus _ => condition = mesosStatus.condition
  | .rescheduleReserved .. => ∀ i ∈ maybeInstance, i.state.condition.isTerminal
  | .revert _ => False
  | _ => True

instance (maybeInstance : Option Instance) (op : InstanceUpdateOperation) :
    Decidable (op.Issued maybeInstance) := by
  cases op <;> unfold InstanceUpdateOperation.Issued <;> infer_instance

/-! ## Every operation -/

/-- No task is scheduled, and while the instance is terminal or scheduled its tasks may be
replaced. -/
structure Instance.Accounted (i : Instance) : Prop where
  launched : ∀ task ∈ i.tasks, task.status.condition ≠ .scheduled
  replaceable : i.state.condition.isTerminal ∨ i.state.condition = .scheduled → Replaceable i.tasks

namespace Instance.Accounted

open InstanceUpdater InstanceUpdateOpResolver

variable {i : Instance}

theorem of_tasks_eq_nil (h : i.tasks = []) : i.Accounted where
  launched := by
    rw [h]
    exact fun task htask => absurd htask List.not_mem_nil
  replaceable := by
    rw [h]
    exact fun _ task htask => absurd htask List.not_mem_nil

theorem applyTaskUpdate (h : i.Accounted) {updatedTask : Task} (now : Timestamp)
    (hupdated : updatedTask.status.condition ≠ .scheduled) :
    (applyTaskUpdate i updatedTask now).Accounted := by
  have hlaunched : ∀ task ∈ (InstanceUpdater.applyTaskUpdate i updatedTask now).tasks,
      task.status.condition ≠ .scheduled := by
    intro task htask
    rcases Dict.mem_values_updated htask with rfl | hold
    · exact hupdated
    · exact h.launched task hold
  refine ⟨hlaunched, ?_⟩
  have hcondition : (InstanceUpdater.applyTaskUpdate i updatedTask now).state.condition =
      conditionFromTasks (InstanceUpdater.applyTaskUpdate i updatedTask now).tasks now
        i.unreachableStrategy := condition_transitionTo _ _ _ _ _
  rw [hcondition]
  rintro (hterminal | hscheduled)
  · exact replaceable_of_conditionFromTasks hterminal
  · intro task htask
    obtain ⟨_, hinactive | ⟨sibling, hsibling, hsame⟩⟩ :=
      conditionFromTasks_spec htask now i.unreachableStrategy
    · rw [hscheduled] at hinactive
      cases hinactive
    · exact absurd (hsame.trans hscheduled) (hlaunched sibling hsibling)

/-- What an effect leaves behind, if it leaves an instance behind. -/
theorem instanceUpdateEffectForTask (h : i.Accounted) {updatedTask : Task}
    (hupdated : updatedTask.status.condition ≠ .scheduled) :
    ∀ j ∈ (InstanceUpdater.instanceUpdateEffectForTask i updatedTask now).applyTo (some i),
      j.Accounted := by
  intro j hj
  unfold InstanceUpdater.instanceUpdateEffectForTask at hj
  dsimp only at hj
  split_ifs at hj with hsame hunreachable hexpunge habandon
  · cases hj
    exact h
  · cases hj
  · cases hj
  · cases hj
    -- a reservation is abandoned when all tasks are terminal
    rw [shouldAbandonReservation, Bool.and_eq_true] at habandon
    refine ⟨(h.applyTaskUpdate now hupdated).launched, fun _ => ?_⟩
    exact replaceable_of_forall_isTerminal (List.all_eq_true.mp habandon.2)
  · cases hj
    exact h.applyTaskUpdate now hupdated

theorem mesosUpdate (h : i.Accounted) {mesosStatus : Mesos.TaskStatus}
    (heffect : InstanceUpdater.mesosUpdate i mesosStatus.condition mesosStatus now = .ok effect) :
    ∀ j ∈ effect.applyTo (some i), j.Accounted := by
  have hkept : ∀ j ∈ some i, j.Accounted := fun j hj => Option.some.inj hj ▸ h
  obtain ⟨cause, rfl⟩ | rfl | ⟨updatedTask, hreports, rfl⟩ := mesosUpdate_eq_ok heffect
  · exact hkept
  · exact hkept
  · apply h.instanceUpdateEffectForTask
    cases hreports with
    | updated _ htask hupdate =>
      obtain ⟨_, _, hnew | ⟨hold, _⟩⟩ := Task.update_eq_update hupdate
      · rw [hnew]
        exact (TaskCondition.ofState_ne _ _ _).1
      · exact absurd hold (h.launched _ (Dict.mem_values.mpr ⟨_, htask⟩))
    | unchanged _ htask => exact h.launched _ (Dict.mem_values.mpr ⟨_, htask⟩)

theorem provision {agentInfo : AgentInfo} {runSpec : RunSpec}
    {tasks : Dict TaskId Task} {j : Instance}
    (hprovisioned : i.provisioned agentInfo runSpec tasks now = .ok j)
    (htasks : ∀ task ∈ tasks.values, task.status.condition = .provisioned) : j.Accounted := by
  unfold provisioned at hprovisioned
  split_ifs at hprovisioned
  cases hprovisioned
  refine ⟨?_, ?_⟩
  · intro task htask
    rw [htasks task htask]
    exact Condition.noConfusion
  · rintro (hterminal | hscheduled)
    · cases hterminal
    · cases hscheduled

theorem congr (h : i.Accounted) {j : Instance} (htasks : j.tasks = i.tasks)
    (hcondition : j.state.condition = i.state.condition) : j.Accounted where
  launched := by
    rw [htasks]
    exact h.launched
  replaceable := by
    rw [htasks, hcondition]
    exact h.replaceable

theorem resolve {clock : Timestamp} {op : InstanceUpdateOperation}
    (h : ∀ i ∈ maybeInstance, i.Accounted) (hissued : op.Issued maybeInstance)
    (heffect : InstanceUpdateOpResolver.resolve clock maybeInstance op = .ok effect) :
    ∀ j ∈ effect.applyTo maybeInstance, j.Accounted := by
  cases op with
  | schedule i =>
    cases heffect
    cases maybeInstance with
    | none =>
      intro j hj
      cases hj
      apply of_tasks_eq_nil
      rw [tasks, Dict.values, hissued, List.map_nil]
    | some existing => exact h
  | revert i => exact hissued.elim
  | forceExpunge id =>
    cases maybeInstance with
    | none =>
      cases heffect
      exact h
    | some existing =>
      cases heffect
      intro j hj
      cases hj
  | provision id agentInfo runSpec tasks now =>
    rcases updateExistingInstance_eq_ok heffect with ⟨rfl, rfl⟩ | ⟨i, rfl, hok⟩
    · exact h
    · cases hprovisioned : i.provisioned agentInfo runSpec tasks now with
      | error thrown =>
        rw [hprovisioned] at hok
        cases hok
      | ok updated =>
        rw [hprovisioned] at hok
        cases hok
        intro j hj
        cases hj
        exact provision hprovisioned hissued
  | rescheduleReserved id runSpec =>
    rcases updateExistingInstance_eq_ok heffect with ⟨rfl, rfl⟩ | ⟨i, rfl, hok⟩
    · exact h
    · cases hok
      intro j hj
      cases hj
      refine ⟨(h i rfl).launched, fun _ => ?_⟩
      exact (h i rfl).replaceable (.inl (hissued i rfl))
  | mesosUpdate source condition mesosStatus now =>
    rcases updateExistingInstance_eq_ok heffect with ⟨rfl, rfl⟩ | ⟨i, rfl, hok⟩
    · exact h
    · obtain rfl : condition = mesosStatus.condition := hissued
      exact (h i rfl).mesosUpdate hok
  | reservationTimeout id =>
    rcases updateExistingInstance_eq_ok heffect with ⟨rfl, rfl⟩ | ⟨i, rfl, hok⟩
    · exact h
    · cases hok
      unfold reservationTimeout
      split_ifs
      · intro j hj
        cases hj
      · exact h
  | changeGoal id goal =>
    rcases updateExistingInstance_eq_ok heffect with ⟨rfl, rfl⟩ | ⟨i, rfl, hok⟩
    · exact h
    · cases hok
      unfold changeGoal
      dsimp only
      split_ifs
      · intro j hj
        cases hj
      · intro j hj
        cases hj
        exact (h i rfl).congr rfl rfl
  | reserve id reservation agentInfo =>
    rcases updateExistingInstance_eq_ok heffect with ⟨rfl, rfl⟩ | ⟨i, rfl, hok⟩
    · exact h
    · cases hok
      intro j hj
      cases hj
      exact (h i rfl).congr rfl rfl
  | unreserve id =>
    rcases updateExistingInstance_eq_ok heffect with ⟨rfl, rfl⟩ | ⟨i, rfl, hok⟩
    · exact h
    · unfold unreserve at hok
      split_ifs at hok
      cases hok
      intro j hj
      cases hj

theorem step (h : ∀ i ∈ maybeInstance, i.Accounted)
    {event : Timestamp × InstanceUpdateOperation} (hissued : event.2.Issued maybeInstance) :
    ∀ j ∈ InstanceUpdateOpResolver.step maybeInstance event, j.Accounted := by
  unfold InstanceUpdateOpResolver.step
  split
  · rename_i effect heffect
    exact resolve h hissued heffect
  · exact h

end Instance.Accounted

/-- One instance from when it is scheduled, under any operations at any times. -/
def trackedInstance : Machine (Option Instance) (Timestamp × InstanceUpdateOperation) where
  Init maybeInstance := ∃ runSpec id now, maybeInstance = some (Instance.scheduled runSpec id now)
  step maybeInstance event := some (InstanceUpdateOpResolver.step maybeInstance event)

/-- **An instance that is scheduled, and every instance that is provisioned, has only tasks that
may be replaced.** -/
theorem replaceable_of_isScheduled {maybeInstance : Option Instance}
    (h : trackedInstance.ReachableIf (fun m event => event.2.Issued m) maybeInstance) :
    ∀ i ∈ maybeInstance,
      (i.isScheduled → Replaceable i.tasks ∧
        (i.tasks.length ≤ 1 → ∀ task ∈ i.tasks, task.isTerminal)) ∧
      ∀ agentInfo runSpec tasks now j, i.provisioned agentInfo runSpec tasks now = .ok j →
        Replaceable i.tasks := by
  have haccounted : ∀ i ∈ maybeInstance, i.Accounted := by
    apply h.invariant
    · rintro _ ⟨runSpec, id, now, rfl⟩ i hi
      cases hi
      exact .of_tasks_eq_nil rfl
    · intro m event m' hm hissued hstep
      cases hstep
      exact Instance.Accounted.step hm hissued
  intro i hi
  have hreplaceable : i.isScheduled → Replaceable i.tasks := by
    intro hscheduled
    unfold Instance.isScheduled at hscheduled
    rw [Bool.and_eq_true, Bool.or_eq_true, decide_eq_true_eq, decide_eq_true_eq] at hscheduled
    exact (haccounted i hi).replaceable hscheduled.2
  refine ⟨fun hscheduled => ⟨hreplaceable hscheduled, fun hlength task htask =>
    (hreplaceable hscheduled).isTerminal_of_length_le_one hlength htask⟩, ?_⟩
  intro agentInfo runSpec tasks now j hprovisioned
  unfold Instance.provisioned at hprovisioned
  split_ifs at hprovisioned with hscheduled
  exact hreplaceable hscheduled

/-! ## A pod of which one task fails -/

def noResources : Resources where
  cpus := 0
  mem := 0
  disk := 0
  gpus := 0

def plainContainer (name : String) : MesosContainer where
  name := name
  exec := none
  resources := noResources
  endpoints := []
  image := none
  env := ∅
  user := none
  healthCheck := none
  volumeMounts := []
  artifacts := []
  labels := ∅
  lifecycle := none
  tty := none
  linuxInfo := none
  resourceLimits := none

/-- A pod of which only the id and the names of the containers matter. -/
def plainPod (id : AbsolutePathId) (containers : List String) : PodDefinition where
  id := id
  user := none
  env := ∅
  labels := ∅
  acceptedResourceRoles := ∅
  secrets := ∅
  containers := containers.map plainContainer
  instances := 1
  constraints := ∅
  versionInfo := .onlyVersion ⟨0⟩
  networks := []
  backoffStrategy := ⟨1000000000, 300000000000, 23 / 20⟩
  upgradeStrategy := ⟨1, 1⟩
  executorResources := noResources
  linuxInfo := none
  volumes := []
  unreachableStrategy := .unreachableDisabled
  killSelection := .youngestFirst
  role := "*"
  legacySharedCgroups := none

def plainAgent : AgentInfo where
  host := "agent"
  agentId := none
  region := none
  zone := none
  attributes := []

/-- A status that says nothing but the state of a task. -/
def plainStatus (taskId : TaskId) (state : Mesos.TaskState) : Mesos.TaskStatus where
  taskId := some taskId
  state := state
  message := none
  reason := none
  slaveId := "agent"
  healthy := none
  checkStatus := none
  unreachableTime := none
  timestamp := 0
  containerStatus := none
  unread := []

namespace Twins

def pod : RunSpec := .pod (plainPod ⟨["twins"]⟩ ["left", "right"])

def instanceId : InstanceId := ⟨⟨["twins"]⟩, .instance, ⟨0⟩⟩

def left : TaskId := .ofContainer instanceId (some "left")

def right : TaskId := .ofContainer instanceId (some "right")

def scheduledInstance : Instance := .scheduled pod instanceId ⟨0⟩

theorem init_scheduledInstance : trackedInstance.Init (some scheduledInstance) :=
  ⟨pod, instanceId, ⟨0⟩, rfl⟩

def provisionedTasks : Dict TaskId Task :=
  Dict.ofBindings <| [left, right].map fun id =>
    (id, Tasks.provisionedTask id ⟨"agent", [], []⟩ ⟨0⟩ ⟨1⟩)

/-- Both tasks are launched, the left one is running, the right one fails. -/
def failingRun : List (Timestamp × InstanceUpdateOperation) :=
  [(⟨1⟩, .provision instanceId plainAgent pod provisionedTasks ⟨1⟩),
    (⟨2⟩, .mesosUpdateOf scheduledInstance (plainStatus left .running) ⟨2⟩),
    (⟨3⟩, .mesosUpdateOf scheduledInstance (plainStatus right .failed) ⟨3⟩)]

theorem failingRun_scheduled :
    ((trackedInstance.runIf (fun m event => event.2.Issued m) (some scheduledInstance)
      failingRun).bind fun m => m.map fun i =>
        decide (i.isScheduled ∧ i.tasks.map (·.status.condition) = [.running, .failed])) =
      some true := by
  decide +kernel

/-- The left task may be replaced, because the right one has failed. -/
theorem failingRun_replaceable :
    ∃ i, trackedInstance.run (some scheduledInstance) failingRun = some (some i) ∧ i.isScheduled ∧
      Replaceable i.tasks := by
  obtain ⟨m, hrun, hm⟩ := Option.bind_eq_some_iff.mp failingRun_scheduled
  obtain ⟨i, rfl, hi⟩ := Option.map_eq_some_iff.mp hm
  obtain ⟨hscheduled, _⟩ := of_decide_eq_true hi
  have hreachable := Machine.reachableIf_of_runIf failingRun (.init init_scheduledInstance) hrun
  exact ⟨i, Machine.run_of_runIf hrun, hscheduled,
    ((replaceable_of_isScheduled hreachable i rfl).1 hscheduled).1⟩

/-- Not all the tasks of an instance that is scheduled are terminal. -/
theorem not_forall_isTerminal :
    ¬∀ m, trackedInstance.ReachableIf (fun m event => event.2.Issued m) m →
      ∀ i ∈ m, i.isScheduled → ∀ task ∈ i.tasks, task.isTerminal := by
  intro hall
  obtain ⟨m, hrun, hm⟩ := Option.bind_eq_some_iff.mp failingRun_scheduled
  obtain ⟨i, rfl, hi⟩ := Option.map_eq_some_iff.mp hm
  obtain ⟨hscheduled, hconditions⟩ := of_decide_eq_true hi
  have hreachable := Machine.reachableIf_of_runIf failingRun (.init init_scheduledInstance) hrun
  have hmem : Condition.running ∈ i.tasks.map (·.status.condition) := by
    rw [hconditions]
    exact List.mem_cons_self
  obtain ⟨task, htask, hrunning⟩ := List.mem_map.mp hmem
  have hterminal := hall _ hreachable i rfl hscheduled task htask
  rw [Task.isTerminal, hrunning] at hterminal
  cases hterminal

end Twins

end Marathon
