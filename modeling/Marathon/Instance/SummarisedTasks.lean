import Marathon.Instance.LiveTasks

/-!
# Instances sum up their tasks

The state of an instance has the condition and the health of its tasks, and the time at which the
first of them started. The old state is kept while condition and health stay the same, and then a
task that starts does not show.
-/

namespace Marathon

open Lib

namespace InstanceState

theorem transitionTo_spec (state : InstanceState) (tasks : List Task) (now : Timestamp)
    (strategy : UnreachableStrategy) (goal : Goal) :
    (transitionTo (some state) tasks now strategy goal).condition =
        conditionFromTasks tasks now strategy ∧
      (transitionTo (some state) tasks now strategy goal).healthy = computeHealth none tasks ∧
      ((transitionTo (some state) tasks now strategy goal).activeSince = firstStartedAt tasks ↔
        state.activeSince = firstStartedAt tasks ∨
          conditionFromTasks tasks now strategy ≠ state.condition ∨
          computeHealth none tasks ≠ state.healthy) := by
  unfold transitionTo
  dsimp only
  split_ifs with h
  · rw [Bool.and_eq_true, decide_eq_true_iff, decide_eq_true_iff] at h
    refine ⟨h.1, h.2, fun hactive => .inl hactive, ?_⟩
    rintro (hactive | hcondition | hhealthy)
    · exact hactive
    · exact absurd h.1.symm hcondition
    · exact absurd h.2.symm hhealthy
  · refine ⟨rfl, rfl, fun _ => ?_, fun _ => rfl⟩
    by_contra hnot
    push Not at hnot
    obtain ⟨-, hcondition, hhealthy⟩ := hnot
    exact h (by simp [hcondition, hhealthy])

end InstanceState

open InstanceState InstanceUpdater

namespace Instance

/-- The state of the instance says of its tasks what they are at that time. -/
structure Summarises (i : Instance) (now : Timestamp) : Prop where
  condition : i.state.condition = conditionFromTasks i.tasks now i.unreachableStrategy
  healthy : i.state.healthy = computeHealth none i.tasks
  activeSince : i.state.activeSince = firstStartedAt i.tasks

/-- The tasks stand under their own ids, and the instance is active since the first of them
started. -/
structure InStep (i : Instance) : Prop where
  taskId : ∀ taskId task, i.tasksMap.lookup taskId = some task → task.taskId = taskId
  activeSince : i.state.activeSince = firstStartedAt i.tasks

/-- No terminal task of the instance is another one afterwards. -/
def KeepsTerminal (i j : Instance) : Prop :=
  ∀ taskId task, i.tasksMap.lookup taskId = some task → task.isTerminal →
    j.tasksMap.lookup taskId = some task

end Instance

/-- A status of a task that Mesos sends. -/
structure StatusUpdate where
  condition : Condition
  mesosStatus : Mesos.TaskStatus
  now : Timestamp

namespace StatusUpdate

def effectOn (e : StatusUpdate) (i : Instance) : Except Thrown InstanceUpdateEffect :=
  InstanceUpdater.mesosUpdate i e.condition e.mesosStatus e.now

/-- Where the first start of the tasks changes, their condition or their health is another one than
that of the instance. -/
def StartShows (i : Instance) (e : StatusUpdate) : Prop :=
  ∀ updatedTask, Reports i e.condition e.mesosStatus e.now updatedTask →
    let tasks := (i.tasksMap.updated updatedTask.taskId updatedTask).values
    firstStartedAt i.tasks = firstStartedAt tasks ∨
      conditionFromTasks tasks e.now i.unreachableStrategy ≠ i.state.condition ∨
      computeHealth none tasks ≠ i.state.healthy

/-- An instance under status updates, until it is expunged. -/
def machine : Machine Instance StatusUpdate where
  Init i := i.tasks ≠ [] ∧ i.InStep
  step i e :=
    match e.effectOn i with
    | .ok (.update j _ _) => some j
    | .ok (.noop _) => some i
    | .ok (.failure _) => some i
    | .ok (.expunge ..) => none
    | .error _ => none

variable {i j : Instance} {e : StatusUpdate} {updatedTask : Task} {oldState : Option Instance}
  {events : List MarathonEvent}

theorem reports_unique {updatedTask' : Task}
    (h : Reports i e.condition e.mesosStatus e.now updatedTask)
    (h' : Reports i e.condition e.mesosStatus e.now updatedTask') : updatedTask' = updatedTask := by
  cases h with
  | updated hid htask hupdate =>
    cases h' with
    | updated hid' htask' hupdate' =>
      cases hid.symm.trans hid'
      cases htask.symm.trans htask'
      exact (TaskUpdateEffect.update.inj (hupdate.symm.trans hupdate')).symm
    | unchanged hid' htask' hnoop' =>
      cases hid.symm.trans hid'
      cases htask.symm.trans htask'
      rw [hupdate] at hnoop'
      cases hnoop'
  | unchanged hid htask hnoop =>
    cases h' with
    | updated hid' htask' hupdate' =>
      cases hid.symm.trans hid'
      cases htask.symm.trans htask'
      rw [hnoop] at hupdate'
      cases hupdate'
    | unchanged hid' htask' =>
      cases hid.symm.trans hid'
      exact Option.some.inj (htask'.symm.trans htask)

theorem lookup_of_reports (hi : i.InStep)
    (h : Reports i e.condition e.mesosStatus e.now updatedTask) :
    ∃ task, i.tasksMap.lookup updatedTask.taskId = some task ∧
      (task.isTerminal → updatedTask = task) := by
  cases h with
  | @updated taskId task hid htask hupdate =>
    obtain ⟨hterminal, hsame, -⟩ := Task.update_eq_update hupdate
    have hkey := hi.taskId taskId task htask
    refine ⟨task, ?_, fun h => absurd h hterminal⟩
    rw [hsame, hkey]
    exact htask
  | @unchanged taskId hid htask hnoop =>
    have hkey := hi.taskId taskId updatedTask htask
    refine ⟨updatedTask, ?_, fun _ => rfl⟩
    rw [hkey]
    exact htask

theorem keepsTerminal_applyTaskUpdate (hi : i.InStep)
    (h : Reports i e.condition e.mesosStatus e.now updatedTask) :
    i.KeepsTerminal (applyTaskUpdate i updatedTask e.now) := by
  intro taskId task htask hterminal
  obtain ⟨old, hold, hsame⟩ := lookup_of_reports hi h
  show (i.tasksMap.updated updatedTask.taskId updatedTask).lookup taskId = some task
  rw [Dict.lookup_updated]
  split_ifs with hid
  · rw [← hid, htask] at hold
    cases hold
    rw [hsame hterminal]
  · exact htask

theorem eq_of_effect_update
    (h : instanceUpdateEffectForTask i updatedTask e.now = .update j oldState events) :
    j = applyTaskUpdate i updatedTask e.now ∨
      (applyTaskUpdate i updatedTask e.now).hasReservation = true ∧
        j =
          { applyTaskUpdate i updatedTask e.now with
            agentInfo := none
            reservation := none
            state :=
              { (applyTaskUpdate i updatedTask e.now).state with condition := .scheduled } } := by
  unfold instanceUpdateEffectForTask at h
  dsimp only at h
  split_ifs at h with hsame hunreachable hexpunge habandon
  · cases h
    rw [shouldAbandonReservation, Bool.and_eq_true, Bool.and_eq_true] at habandon
    exact .inr ⟨habandon.1.1, rfl⟩
  · cases h
    exact .inl rfl

theorem summarises_applyTaskUpdate_iff (hi : i.InStep)
    (h : Reports i e.condition e.mesosStatus e.now updatedTask) :
    (applyTaskUpdate i updatedTask e.now).Summarises e.now ↔ StartShows i e := by
  obtain ⟨hcondition, hhealthy, hactive⟩ := transitionTo_spec i.state
    (i.tasksMap.updated updatedTask.taskId updatedTask).values e.now i.unreachableStrategy
    i.state.goal
  rw [hi.activeSince] at hactive
  constructor
  · intro hsum updatedTask' h'
    obtain rfl := reports_unique h h'
    exact hactive.mp hsum.activeSince
  · intro hshows
    exact ⟨hcondition, hhealthy, hactive.mpr (hshows updatedTask h)⟩

theorem inStep_of_update (hi : i.InStep) (hshows : StartShows i e)
    (heffect : e.effectOn i = .ok (.update j oldState events)) : j.InStep := by
  obtain ⟨cause, h⟩ | h | ⟨updatedTask, hreports, h⟩ := mesosUpdate_eq_ok heffect
  · cases h
  · cases h
  have hsum := (summarises_applyTaskUpdate_iff hi hreports).mpr hshows
  have hkeyed : ∀ taskId task,
      (applyTaskUpdate i updatedTask e.now).tasksMap.lookup taskId = some task →
        task.taskId = taskId := by
    intro taskId task htask
    have hlookup : (i.tasksMap.updated updatedTask.taskId updatedTask).lookup taskId = some task :=
      htask
    rw [Dict.lookup_updated] at hlookup
    split_ifs at hlookup with hid
    · rw [hid, Option.some.inj hlookup]
    · exact hi.taskId taskId task hlookup
  obtain rfl | ⟨-, rfl⟩ := eq_of_effect_update h.symm
  · exact ⟨hkeyed, hsum.activeSince⟩
  · exact ⟨hkeyed, hsum.activeSince⟩

theorem inStep_of_reachableIf (h : machine.ReachableIf StartShows i) : i.InStep := by
  refine Machine.ReachableIf.invariant (I := Instance.InStep) ?_ ?_ h
  · exact fun s hs => hs.2
  intro s e s' hs hshows hstep
  simp only [machine] at hstep
  split at hstep
  · rename_i heffect
    cases hstep
    exact inStep_of_update hs hshows heffect
  · cases hstep
    exact hs
  · cases hstep
    exact hs
  · cases hstep
  · cases hstep

/-- Along a run in which every start shows, an update that does not abandon the reservation leaves
an instance that sums up its tasks, and its terminal tasks as they are, exactly if a start shows
once more. -/
theorem summarises_iff (h : machine.ReachableIf StartShows i)
    (heffect : e.effectOn i = .ok (.update j oldState events))
    (hkept : j.hasReservation = i.hasReservation) :
    j.Summarises e.now ∧ i.KeepsTerminal j ↔ StartShows i e := by
  have hi := inStep_of_reachableIf h
  obtain ⟨cause, h⟩ | h | ⟨updatedTask, hreports, h⟩ := mesosUpdate_eq_ok heffect
  · cases h
  · cases h
  obtain rfl | ⟨hreserved, rfl⟩ := eq_of_effect_update h.symm
  · rw [summarises_applyTaskUpdate_iff hi hreports]
    exact and_iff_left (keepsTerminal_applyTaskUpdate hi hreports)
  · rw [hasReservation_applyTaskUpdate, ← hkept] at hreserved
    cases hreserved

namespace Launched

open Twins

/-- The instance with two tasks that have just been launched. -/
def launched : Instance :=
  { scheduledInstance with
    agentInfo := some plainAgent
    state := ⟨.provisioned, ⟨1⟩, none, none, .running⟩
    tasksMap := provisionedTasks }

def update (state : Mesos.TaskState) : StatusUpdate :=
  ⟨(plainStatus left state).condition, plainStatus left state, ⟨2⟩⟩

theorem init_launched : machine.Init launched := by
  refine ⟨by decide, ⟨?_, rfl⟩⟩
  exact Dict.forall_lookup_iff.mpr (by decide)

theorem summarises_staging :
    ∃ j oldState events, (update .staging).effectOn launched = .ok (.update j oldState events) ∧
      (j.Summarises ⟨2⟩ ∧ launched.KeepsTerminal j ↔ StartShows launched (update .staging)) := by
  have hexists : ∃ j oldState events,
      (update .staging).effectOn launched = .ok (.update j oldState events) ∧
        j.hasReservation = launched.hasReservation := ⟨_, _, _, rfl, rfl⟩
  obtain ⟨j, oldState, events, heffect, hkept⟩ := hexists
  exact ⟨j, oldState, events, heffect, summarises_iff (.init init_launched) heffect hkept⟩

/-- The left task has started, and the instance stays what it was because of the right one. -/
theorem not_forall_summarises :
    ¬∀ (i : Instance), machine.Reachable i → ∀ (e : StatusUpdate) (j : Instance)
      (oldState : Option Instance) (events : List MarathonEvent),
      e.effectOn i = .ok (.update j oldState events) → j.hasReservation = i.hasReservation →
        j.Summarises e.now ∧ i.KeepsTerminal j := by
  intro h
  have hsum := (h launched (.init init_launched) (update .running) _ _ _ rfl rfl).1.activeSince
  revert hsum
  decide

end Launched

end StatusUpdate

end Marathon
