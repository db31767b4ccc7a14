import Marathon.Instance.SummarisedTasks

/-!
# Overdue instances

An instance with a task that has been unreachable for too long is expunged, either when another
status of the task arrives or by a job that looks for inactive instances.
-/

namespace Marathon

open Lib InstanceUpdater

namespace ExpungeOverdueLostTasksActorLogic

/-- Whether the next tick expunges the instance. -/
def shouldExpunge (i : Instance) (now : Timestamp) : Bool :=
  match i.unreachableStrategy with
  | .unreachableDisabled => false
  | .unreachableEnabled _ expungeAfter =>
    i.state.condition = .unreachableInactive && i.tasks.any (·.isUnreachableExpired now expungeAfter)

end ExpungeOverdueLostTasksActorLogic

open ExpungeOverdueLostTasksActorLogic

namespace Instance

variable {i : Instance} {task : Task} {status : Mesos.TaskStatus} {now : Timestamp}
  {inactiveAfter expungeAfter : FiniteDuration}

/-- The status reports again that the task is unreachable, since the time that is known. -/
structure ReportsAgain (status : Mesos.TaskStatus) (task : Task) : Prop where
  taskId : status.taskId = some task.taskId
  state : status.state = .unreachable
  since : ∀ current, task.status.mesosStatus = some current →
    status.unreachableSince = current.unreachableSince

/-- The instance is expunged, or it is left to the next tick. -/
def Settles (i : Instance) (now : Timestamp) : Except Thrown InstanceUpdateEffect → Prop
  | .ok (.expunge ..) => True
  | .ok (.update j _ _) => shouldExpunge j now = true
  | .ok (.noop _) | .ok (.failure _) | .error _ => shouldExpunge i now = true

theorem update_of_expired (hexpired : task.isUnreachableExpired now expungeAfter = true)
    (hasReservation : Bool) (status : Mesos.TaskStatus) :
    task.update hasReservation .unreachable status now =
      match Task.updatedHealthOrState task.status.mesosStatus status with
      | some newTaskStatus =>
        .update { task with
          status := { task.status with
            mesosStatus := some newTaskStatus
            condition := .unreachable
            networkInfo := task.status.networkInfo.update status } }
      | none => .noop := by
  rw [Task.isUnreachableExpired, Bool.and_eq_true, Bool.or_eq_true, decide_eq_true_iff,
    decide_eq_true_iff] at hexpired
  have hterminal : ¬task.isTerminal = true := by
    rw [Task.isTerminal]
    rcases hexpired.1 with h | h
    · rw [h]
      decide
    · rw [h]
      decide
  have hscheduled : ¬(decide (task.status.condition = .scheduled) && hasReservation) = true := by
    rcases hexpired.1 with h | h
    · simp [h]
    · simp [h]
  rw [Task.update, if_neg hterminal, if_neg (by simp), if_neg (by decide), if_neg hscheduled] <;> rfl

theorem shouldExpunge_iff (hstrategy : i.unreachableStrategy = .unreachableEnabled inactiveAfter expungeAfter)
    (htask : i.tasksMap.lookup task.taskId = some task)
    (hexpired : task.isUnreachableExpired now expungeAfter = true) :
    shouldExpunge i now = true ↔ i.state.condition = .unreachableInactive := by
  have hany : i.tasks.any (·.isUnreachableExpired now expungeAfter) = true :=
    List.any_eq_true.mpr ⟨task, Dict.mem_values.mpr ⟨_, htask⟩, hexpired⟩
  rw [shouldExpunge, hstrategy]
  dsimp only
  rw [hany, Bool.and_true, decide_eq_true_iff]

theorem updatedHealthOrState_eq_some {current update newTaskStatus : Mesos.TaskStatus}
    (h : Task.updatedHealthOrState (some current) update = some newTaskStatus) :
    newTaskStatus = update ∧ update ≠ current := by
  simp only [Task.updatedHealthOrState] at h
  split_ifs at h with hchanged
  refine ⟨(Option.some.inj h).symm, ?_⟩
  rintro rfl
  rw [Bool.or_eq_true, Bool.or_eq_true] at hchanged
  rcases hchanged with (hhealthy | hcheck) | hstate
  · rw [Bool.and_eq_true, Bool.or_eq_true] at hhealthy
    obtain ⟨hsome, hnone | hne⟩ := hhealthy
    · cases hupdate : update.healthy <;> simp [hupdate] at hsome hnone
    · simp at hne
  · rw [Bool.and_eq_true, Bool.or_eq_true] at hcheck
    obtain ⟨hsome, hnone | hne⟩ := hcheck
    · cases hupdate : update.checkStatus <;> simp [hupdate] at hsome hnone
    · simp at hne
  · simp at hstate

theorem effect_of_expired (hstrategy : i.unreachableStrategy = .unreachableEnabled inactiveAfter expungeAfter)
    (hexpired : task.isUnreachableExpired now expungeAfter = true) :
    instanceUpdateEffectForTask i task now = .noop i.instanceId ∧ ¬Changes i task now ∨
      ∃ updated events, instanceUpdateEffectForTask i task now = .expunge updated events := by
  have hready : readyToExpungeUnreachable (applyTaskUpdate i task now) now = true := by
    have hsame : (applyTaskUpdate i task now).unreachableStrategy = i.unreachableStrategy := rfl
    have hlookup : (applyTaskUpdate i task now).tasksMap.lookup task.taskId = some task := by
      change (i.tasksMap.updated task.taskId task).lookup task.taskId = some task
      rw [Dict.lookup_updated, if_pos rfl]
    rw [readyToExpungeUnreachable, hsame, hstrategy]
    exact List.any_eq_true.mpr ⟨task, Dict.mem_values.mpr ⟨_, hlookup⟩, hexpired⟩
  rw [instanceUpdateEffectForTask]
  by_cases hchanges : Changes i task now
  · rw [if_neg (changes_iff.mp hchanges), if_pos hready]
    exact .inr ⟨_, _, rfl⟩
  · rw [if_pos (not_not.mp (mt changes_iff.mpr hchanges))]
    exact .inl ⟨rfl, hchanges⟩

/-- The condition under which the instance is settled: it is inactive already, or the status says
something new about the health, the check or the state of the task. -/
def Noticed (i : Instance) (task : Task) (status : Mesos.TaskStatus) : Prop :=
  i.state.condition = .unreachableInactive ∨
    (Task.updatedHealthOrState task.status.mesosStatus status).isSome = true

theorem settles_of_changed
    (hstrategy : i.unreachableStrategy = .unreachableEnabled inactiveAfter expungeAfter)
    (htask : i.tasksMap.lookup task.taskId = some task)
    (hexpired : task.isUnreachableExpired now expungeAfter = true)
    (hagain : ReportsAgain status task) {newTaskStatus : Mesos.TaskStatus}
    (hchanged : Task.updatedHealthOrState task.status.mesosStatus status = some newTaskStatus) :
    Settles i now (mesosUpdate i .unreachable status now) := by
  have hcurrent : ∃ current, task.status.mesosStatus = some current ∧
      current.unreachableSince.expired now expungeAfter = true := by
    have hany := (Bool.and_eq_true_iff.mp hexpired).2
    cases hstatus : task.status.mesosStatus with
    | none =>
      rw [hstatus] at hany
      cases hany
    | some current =>
      rw [hstatus] at hany
      exact ⟨current, rfl, hany⟩
  obtain ⟨current, hcurrent, hsince⟩ := hcurrent
  have hupdate := update_of_expired hexpired i.hasReservation status
  rw [hchanged] at hupdate
  rw [hcurrent] at hchanged
  obtain ⟨rfl, hne⟩ := updatedHealthOrState_eq_some hchanged
  let updatedTask : Task := { task with
    status := { task.status with
      mesosStatus := some newTaskStatus
      condition := .unreachable
      networkInfo := task.status.networkInfo.update newTaskStatus } }
  have hstill : updatedTask.isUnreachableExpired now expungeAfter = true := by
    have hsame : newTaskStatus.unreachableSince.expired now expungeAfter = true := by
      rw [hagain.since current hcurrent]
      exact hsince
    exact hsame
  have hchanges : Changes i updatedTask now := by
    right
    intro hentries
    have hlookup : (applyTaskUpdate i updatedTask now).tasksMap.lookup task.taskId =
        some updatedTask := by
      change (i.tasksMap.updated task.taskId updatedTask).lookup task.taskId = some updatedTask
      rw [Dict.lookup_updated, if_pos rfl]
    rw [AList.ext hentries, htask] at hlookup
    have hstatus := congrArg (fun t : Task => t.status.mesosStatus) (Option.some.inj hlookup)
    exact hne (Option.some.inj (hstatus.symm.trans hcurrent))
  have heffect : mesosUpdate i .unreachable newTaskStatus now =
      .ok (instanceUpdateEffectForTask i updatedTask now) := by
    rw [mesosUpdate, hagain.taskId]
    dsimp only
    rw [htask]
    dsimp only
    rw [hupdate]
  rw [heffect]
  rcases effect_of_expired hstrategy hstill with ⟨-, hnot⟩ | ⟨updated, events, hexpunge⟩
  · exact absurd hchanges hnot
  · rw [hexpunge]
    trivial

theorem settles_mesosUpdate_iff
    (hstrategy : i.unreachableStrategy = .unreachableEnabled inactiveAfter expungeAfter)
    (htask : i.tasksMap.lookup task.taskId = some task)
    (hexpired : task.isUnreachableExpired now expungeAfter = true)
    (hagain : ReportsAgain status task) :
    Settles i now (mesosUpdate i .unreachable status now) ↔ Noticed i task status := by
  have hleft := shouldExpunge_iff hstrategy htask hexpired
  cases hupdate : Task.updatedHealthOrState task.status.mesosStatus status with
  | some newTaskStatus =>
    refine iff_of_true (settles_of_changed hstrategy htask hexpired hagain hupdate) (.inr ?_)
    rw [hupdate]
    rfl
  | none =>
    have hnoop : task.update i.hasReservation .unreachable status now = .noop := by
      rw [update_of_expired hexpired, hupdate]
    rw [mesosUpdate, hagain.taskId, Noticed, hupdate]
    dsimp only
    rw [htask]
    dsimp only
    rw [hnoop]
    by_cases hinactive : i.state.condition = .unreachableInactive
    · refine iff_of_true ?_ (.inl hinactive)
      rw [if_neg (by simp [hinactive])]
      exact hleft.mpr hinactive
    · refine iff_of_false ?_ (by simp [hinactive])
      rw [if_pos (by simp [hinactive])]
      intro hsettles
      -- whatever the task does to the instance, nothing comes of it
      rcases effect_of_expired hstrategy hexpired with ⟨hsame, -⟩ | ⟨updated, events, hexpunge⟩
      · rw [hsame] at hsettles
        exact hinactive (hleft.mp hsettles)
      · rw [hexpunge] at hsettles
        exact hinactive (hleft.mp hsettles)

/-- Another status of a task that has been unreachable for longer than `expungeAfter` settles the
instance exactly if it is inactive already or if the status says something new. -/
theorem settles_resolve_iff (clock : Timestamp)
    (hstrategy : i.unreachableStrategy = .unreachableEnabled inactiveAfter expungeAfter)
    (htask : i.tasksMap.lookup task.taskId = some task)
    (hexpired : task.isUnreachableExpired now expungeAfter = true)
    (hagain : ReportsAgain status task) :
    Settles i now (InstanceUpdateOpResolver.resolve clock (some i) (.mesosUpdateOf i status now)) ↔
      Noticed i task status := by
  have hcondition : status.condition = .unreachable := by
    rw [Mesos.TaskStatus.condition, hagain.state]
    rfl
  rw [InstanceUpdateOperation.mesosUpdateOf, hcondition]
  exact settles_mesosUpdate_iff hstrategy htask hexpired hagain

/-! ## A task of which nothing is heard between the deadlines -/

namespace OverdueInstances

open StatusUpdate Twins

/-- Inactive after five minutes, and expunged after ten. -/
def strategy : UnreachableStrategy := .unreachableEnabled 300000000000 600000000000

def launched : Instance :=
  { Launched.launched with
    runSpec := .pod { plainPod ⟨["twins"]⟩ ["left", "right"] with unreachableStrategy := strategy } }

def unreachable : Mesos.TaskStatus := plainStatus left .unreachable

def unreachableTask : Task :=
  ⟨left, ⟨0⟩, ⟨⟨1⟩, none, some unreachable, .unreachable, ⟨"agent", [], []⟩⟩⟩

theorem init_launched : machine.Init launched := by
  refine ⟨by decide, ⟨?_, rfl⟩⟩
  exact Dict.forall_lookup_iff.mpr (by decide)

def statusAt (now : Timestamp) : StatusUpdate := ⟨.unreachable, unreachable, now⟩

/-- The task becomes unreachable, and the next status comes before or after the deadlines. -/
def heardAt (i : Instance) : Bool :=
  i.unreachableStrategy = strategy && i.tasksMap.lookup left = some unreachableTask

theorem exists_silent : ∃ i, machine.run launched [statusAt ⟨2⟩] = some i ∧
    (heardAt i && i.state.condition = .unreachable) = true :=
  Machine.exists_of_any (by decide +kernel)

theorem exists_inactive : ∃ i,
    machine.run launched [statusAt ⟨2⟩, statusAt ⟨400000000000⟩] = some i ∧
      (heardAt i && i.state.condition = .unreachableInactive) = true :=
  Machine.exists_of_any (by decide +kernel)

theorem expired_unreachableTask :
    unreachableTask.isUnreachableExpired ⟨700000000000⟩ 600000000000 = true := by decide

theorem reportsAgain_unreachable : ReportsAgain unreachable unreachableTask where
  taskId := rfl
  state := rfl
  since current hcurrent := by
    cases hcurrent
    rfl

theorem settles_inactive : ∃ i, machine.Reachable i ∧
    Settles i ⟨700000000000⟩ (InstanceUpdateOpResolver.resolve ⟨700000000000⟩ (some i)
      (.mesosUpdateOf i unreachable ⟨700000000000⟩)) := by
  obtain ⟨i, hrun, htest⟩ := exists_inactive
  rw [heardAt, Bool.and_eq_true, Bool.and_eq_true, decide_eq_true_iff, decide_eq_true_iff,
    decide_eq_true_iff] at htest
  obtain ⟨⟨hstrategy, htask⟩, hinactive⟩ := htest
  exact ⟨i, Machine.reachableIf_of_runIf _ (.init init_launched) hrun,
    (settles_resolve_iff ⟨700000000000⟩ hstrategy htask expired_unreachableTask
      reportsAgain_unreachable).mpr (.inl hinactive)⟩

/-- Nothing is heard of the task between the deadlines: the status then throws, and the instance
stays unreachable, so that no tick expunges it. -/
theorem not_forall_settles :
    ¬∀ (clock now : Timestamp) (i : Instance) (task : Task) (status : Mesos.TaskStatus)
      (inactiveAfter expungeAfter : FiniteDuration), machine.Reachable i →
        i.unreachableStrategy = .unreachableEnabled inactiveAfter expungeAfter →
        inactiveAfter ≤ expungeAfter → i.tasksMap.lookup task.taskId = some task →
        task.isUnreachableExpired now expungeAfter = true → ReportsAgain status task →
        Settles i now (InstanceUpdateOpResolver.resolve clock (some i)
          (.mesosUpdateOf i status now)) := by
  intro hall
  obtain ⟨i, hrun, htest⟩ := exists_silent
  rw [heardAt, Bool.and_eq_true, Bool.and_eq_true, decide_eq_true_iff, decide_eq_true_iff,
    decide_eq_true_iff] at htest
  obtain ⟨⟨hstrategy, htask⟩, hcondition⟩ := htest
  have hsettles := hall ⟨700000000000⟩ ⟨700000000000⟩ i unreachableTask unreachable _ _
    (Machine.reachableIf_of_runIf _ (.init init_launched) hrun) hstrategy (by decide) htask
    expired_unreachableTask reportsAgain_unreachable
  rcases (settles_mesosUpdate_iff hstrategy htask expired_unreachableTask
    reportsAgain_unreachable).mp hsettles with hinactive | hchanged
  · rw [hcondition] at hinactive
    cases hinactive
  · revert hchanged
    decide

end OverdueInstances

end Instance

end Marathon
