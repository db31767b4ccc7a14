import Marathon.Deployment.ScaleWaits

/-!
# Stopping an application

`DeploymentActor.stopRunnable` asks the tracker for the instances of a run spec, decommissions them
and waits until they are gone. Launches and terminations go on meanwhile, and each of the parts may
fail.
-/

namespace Marathon

open Lib Deployment KillStreamWatcher

variable {tracker : Keyed Instance.instanceId} {change : InstanceChange}
  {remaining : Finset InstanceId} {unread : List InstanceChange}

namespace StopRunnable

/-- How far the stop has come. -/
inductive Phase
  | querying
  /-- The goals of these instances have not been changed. -/
  | changingGoals (waiting : List InstanceId)
  /-- What is still there after the changes that were read, and the changes that were not. -/
  | watching (remaining : Finset InstanceId) (unread : List InstanceChange)
  /-- The delay is reset and the event of the termination is published. -/
  | stopped
  /-- An error was logged. -/
  | recovered

/-- The tracker, the stop, and which instances the tracker had when it was asked. -/
structure State where
  runSpecId : AbsolutePathId
  tracker : Keyed Instance.instanceId
  held : List Instance
  phase : Phase

inductive Event
  /-- The tracker changes an instance, of the run spec or not. -/
  | tracked (change : InstanceChange)
  | queried
  | queryFails
  | goalSet (id : InstanceId)
  | goalFails (id : InstanceId)
  | subscribed
  /-- The stream comes to the next change. -/
  | read
  | streamFails

namespace State

def specInstances (s : State) : List Instance :=
  s.tracker.values.filter (·.runSpecId = s.runSpecId)

def remainingThen (s : State) (remaining : Finset InstanceId) (unread : List InstanceChange) :
    State :=
  { s with phase := if remaining = ∅ then .stopped else .watching remaining unread }

/-- The future is completed with success, whatever has happened. -/
def succeeded (s : State) : Bool :=
  match s.phase with
  | .stopped | .recovered => true
  | _ => false

def tracked (s : State) (change : InstanceChange) : State :=
  { s with
    tracker := change.apply s.tracker
    phase :=
      match s.phase with
      | .watching remaining unread => .watching remaining (unread ++ [change])
      | phase => phase }

/-- The state after an event, until the future is completed. -/
def step (s : State) (e : Event) : Option State :=
  match s.phase, e with
  | .stopped, _ | .recovered, _ => none
  | _, .tracked change => some (s.tracked change)
  | .querying, .queried =>
    some { s with
      held := s.specInstances
      phase := .changingGoals (s.specInstances.map (·.instanceId)) }
  | .querying, .queryFails => some { s with held := s.specInstances, phase := .recovered }
  | .changingGoals waiting, .goalSet id =>
    if id ∈ waiting then some { s with phase := .changingGoals (waiting.erase id) } else none
  | .changingGoals waiting, .goalFails id =>
    if id ∈ waiting then some { s with phase := .recovered } else none
  | .changingGoals [], .subscribed =>
    some <| s.remainingThen
      (pendingInstanceIds (instanceTasks s.held)
        considerTerminalIfConditionTerminalAndGoalDecommissioned s.tracker) []
  | .watching remaining (change :: unread), .read =>
    some <| s.remainingThen
      (next (instanceTasks s.held) considerTerminalIfConditionTerminalAndGoalDecommissioned
        remaining change) unread
  | .changingGoals [], .streamFails | .watching .., .streamFails =>
    some { s with phase := .recovered }
  | _, _ => none

end State

def stopRunnable : Machine State Event where
  Init s := s.held = [] ∧ s.phase = .querying
  step := State.step

/-- The instance is expunged, or is decommissioned and terminal. -/
def gone (tracker : Keyed Instance.instanceId) (id : InstanceId) : Bool :=
  (tracker.lookup id).all fun i =>
    i.state.goal = .decommissioned && considerTerminal i.state.condition

/-- A stop that has succeeded leaves nothing behind of what the tracker had. -/
def LeavesNothing (s : State) : Prop :=
  s.succeeded → ∀ i ∈ s.held, gone s.tracker i.instanceId

/-- No part of the stop fails, and no instance that has gone comes back. -/
def Unfailed (s : State) : Event → Prop
  | .queryFails | .goalFails _ | .streamFails => False
  | .tracked change => ∀ i ∈ s.held, gone s.tracker i.instanceId →
      gone (change.apply s.tracker) i.instanceId
  | _ => True

instance (s : State) (e : Event) : Decidable (Unfailed s e) := by
  cases e <;> unfold Unfailed <;> infer_instance

variable {s s' : State} {e : Event} {id : InstanceId}

theorem gone_iff :
    gone tracker id ↔ ∀ i, tracker.lookup id = some i →
      considerTerminalIfConditionTerminalAndGoalDecommissioned i [] := by
  unfold gone considerTerminalIfConditionTerminalAndGoalDecommissioned
  cases tracker.lookup id <;> simp

theorem gone_apply_of_settles {watched : Dict InstanceId (List TaskId)}
    (h : settles watched considerTerminalIfConditionTerminalAndGoalDecommissioned change) :
    gone (change.apply tracker) change.id := by
  rw [gone_iff]
  intro j hj
  cases change with
  | instanceDeleted i =>
    have hnone : (tracker.erase i.instanceId).lookup i.instanceId = none := by
      rw [Keyed.lookup_erase, if_pos rfl]
    rw [InstanceChange.apply, InstanceChange.id, hnone] at hj
    cases hj
  | instanceUpdated i =>
    rw [InstanceChange.apply, InstanceChange.id, Keyed.lookup_insert, if_pos rfl] at hj
    cases hj
    obtain ⟨taskIds, -, hterminal⟩ := Option.any_eq_true _ _ |>.mp h
    exact hterminal

theorem isSome_lookup_instanceTasks {instances : List Instance} {i : Instance}
    (hi : i ∈ instances) : ((instanceTasks instances).lookup i.instanceId).isSome := by
  have hentry : (i.instanceId, i.tasks.map (·.taskId)) ∈
      instances.map fun i => (i.instanceId, i.tasks.map (·.taskId)) := List.mem_map_of_mem hi
  exact Option.isSome_iff_exists.mpr ((Dict.lookup_ofBindings_spec _ _).2 _ hentry)

theorem mem_pending_or_gone {i : Instance} (hi : i ∈ s.held) :
    i.instanceId ∈ pendingInstanceIds (instanceTasks s.held)
        considerTerminalIfConditionTerminalAndGoalDecommissioned s.tracker ∨
      gone s.tracker i.instanceId := by
  rw [mem_pendingInstanceIds, gone_iff, or_iff_not_imp_right]
  intro hnot
  obtain ⟨j, hj, hterminal⟩ : ∃ j, s.tracker.lookup i.instanceId = some j ∧
      ¬considerTerminalIfConditionTerminalAndGoalDecommissioned j [] := by simpa using hnot
  have hid := Keyed.key_of_lookup hj
  obtain ⟨taskIds, htasks⟩ := Option.isSome_iff_exists.mp (isSome_lookup_instanceTasks hi)
  refine ⟨j, Keyed.mem_values.mpr (hid ▸ hj), ?_, hid⟩
  rw [isPending, hid, htasks, Option.any_some, Bool.not_eq_true']
  exact Bool.eq_false_of_not_eq_true hterminal

/-- An instance that the tracker had is still waited for or has gone, and what a change tells to
have gone has gone. -/
structure Accounted (s : State) (remaining : Finset InstanceId) (unread : List InstanceChange) :
    Prop where
  left : ∀ i ∈ s.held, i.instanceId ∈ remaining ∨ gone s.tracker i.instanceId
  told : ∀ i ∈ s.held, ∀ change ∈ unread,
    settles (instanceTasks s.held) considerTerminalIfConditionTerminalAndGoalDecommissioned change →
      change.id = i.instanceId → gone s.tracker i.instanceId

/-- What holds of a stop of which no part has failed. -/
def Told (s : State) : Prop :=
  match s.phase with
  | .watching remaining unread => Accounted s remaining unread
  | .stopped => ∀ i ∈ s.held, gone s.tracker i.instanceId
  | .recovered => False
  | _ => True

theorem told_remainingThen
    (h : Accounted s remaining unread) : Told (s.remainingThen remaining unread) := by
  unfold State.remainingThen Told
  split_ifs with hempty
  · intro i hi
    have hnone : i.instanceId ∉ remaining := hempty ▸ Finset.notMem_empty _
    exact (h.left i hi).resolve_left hnone
  · exact ⟨h.left, h.told⟩

theorem Accounted.tracked (h : Accounted s remaining unread) (hok : Unfailed s (.tracked change)) :
    Accounted (s.tracked change) remaining (unread ++ [change]) where
  left i hi := (h.left i hi).imp_right fun hgone => hok i hi hgone
  told i hi c hc hsettles hid := by
    obtain hc | hc := List.mem_append.mp hc
    · exact hok i hi (h.told i hi c hc hsettles hid)
    · obtain rfl := List.mem_singleton.mp hc
      exact hid ▸ gone_apply_of_settles hsettles

theorem Accounted.read (h : Accounted s remaining (change :: unread)) :
    Accounted s (next (instanceTasks s.held)
      considerTerminalIfConditionTerminalAndGoalDecommissioned remaining change) unread where
  left i hi := by
    rw [mem_next, or_iff_not_imp_right]
    intro hhere
    refine ⟨(h.left i hi).resolve_right hhere, fun hsettled => hhere ?_⟩
    exact h.told i hi change List.mem_cons_self hsettled.1 hsettled.2
  told i hi c hc := h.told i hi c (List.mem_cons_of_mem _ hc)

theorem told_step (h : Told s) (hok : Unfailed s e) (hs : s.step e = some s') : Told s' := by
  unfold State.step at hs
  split at hs
  · cases hs
  · cases hs
  · -- a change of the tracker
    rename_i change _ _
    cases hs
    cases hphase : s.phase with
    | watching remaining unread =>
      rw [Told, hphase] at h
      rw [Told, State.tracked, hphase]
      exact ⟨(h.tracked hok).left, (h.tracked hok).told⟩
    | stopped => contradiction
    | recovered => contradiction
    | querying => rw [Told, State.tracked, hphase]; trivial
    | changingGoals waiting => rw [Told, State.tracked, hphase]; trivial
  · cases hs
    trivial
  · exact hok.elim
  · obtain ⟨-, heq⟩ := Option.ite_none_right_eq_some.mp hs
    cases heq
    trivial
  · exact hok.elim
  · -- the watch begins with what the tracker has
    cases hs
    exact told_remainingThen ⟨fun i hi => mem_pending_or_gone hi, fun _ _ _ hc => nomatch hc⟩
  · rename_i remaining change unread hphase
    cases hs
    rw [Told, hphase] at h
    exact told_remainingThen h.read
  · exact hok.elim
  · exact hok.elim
  · cases hs

/-- **A stop of which no part fails leaves nothing behind, unless an instance comes back.** -/
theorem leavesNothing_of_unfailed (h : stopRunnable.ReachableIf Unfailed s) : LeavesNothing s := by
  have htold : Told s := by
    refine Machine.ReachableIf.invariant (I := Told) ?_ ?_ h
    · rintro s ⟨-, hphase⟩
      rw [Told, hphase]
      trivial
    · exact fun s e s' hI hok hs => told_step hI hok hs
  intro hsucceeded
  unfold State.succeeded at hsucceeded
  unfold Told at htold
  split at hsucceeded
  · rename_i hphase
    rw [hphase] at htold
    exact htold
  · rename_i hphase
    rw [hphase] at htold
    exact htold.elim
  · cases hsucceeded

namespace Web

open SchedulerActions.TwoForOne

/-- The tracker has one instance of the app, which is running. -/
def deploying : State where
  runSpecId := ⟨["web"]⟩
  tracker := InstancesById.ofInstances [running 0]
  held := []
  phase := .querying

/-- The instance is decommissioned, and killed. -/
def killed : Instance :=
  { running 0 with state := ⟨.killed, ⟨2⟩, some ⟨1⟩, none, .decommissioned⟩ }

def kill : List Event :=
  [.queried, .goalSet killed.instanceId, .subscribed, .tracked (.instanceUpdated killed), .read]

theorem leavesNothing_kill :
    ∃ s, stopRunnable.runIf Unfailed deploying kill = some s ∧ s.succeeded ∧ LeavesNothing s := by
  have hany : (stopRunnable.runIf Unfailed deploying kill).any State.succeeded = true := by
    decide +kernel
  obtain ⟨s, hrun, hsucceeded⟩ := Machine.exists_of_any hany
  have hinit : stopRunnable.Init deploying := ⟨rfl, rfl⟩
  have hreachable := Machine.reachableIf_of_runIf kill (.init hinit) hrun
  exact ⟨s, hrun, hsucceeded, leavesNothing_of_unfailed hreachable⟩

/-- The tracker does not answer, and the stop succeeds while the instance is running. -/
theorem not_forall_leavesNothing : ¬∀ s, stopRunnable.Reachable s → LeavesNothing s := by
  intro hall
  have hreachable : stopRunnable.Reachable
      { deploying with held := deploying.specInstances, phase := .recovered } :=
    .step (e := .queryFails) (.init (s := deploying) ⟨rfl, rfl⟩) trivial rfl
  have hheld : running 0 ∈ deploying.specInstances :=
    List.mem_filter.mpr ⟨List.mem_singleton_self _, rfl⟩
  have hgone := hall _ hreachable rfl (running 0) hheld
  have hrunning : gone deploying.tracker (running 0).instanceId = false := by decide +kernel
  exact absurd hgone (by rw [hrunning]; decide)

end Web

end StopRunnable

end Marathon
