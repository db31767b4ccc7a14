import Marathon.Instance.LiveTasks

/-!
# Which operations are resolved

Every operation on an instance has an effect, or one that says why it has none, apart from two that
are required to be applied to certain instances only, and from a status of an unreachable task that
should have the instance expunged.
-/

namespace Marathon

open Lib InstanceUpdateOpResolver

open InstanceUpdater (instanceUpdateEffectForTask)

namespace InstanceUpdateOperation

/-- The task of the status has an id that can be parsed. -/
def Parseable : InstanceUpdateOperation → Prop
  | mesosUpdate _ _ mesosStatus _ => mesosStatus.taskId.isSome
  | _ => True

/-- The operation is one on an instance that exists. -/
def NeedsInstance : InstanceUpdateOperation → Prop
  | schedule _ | forceExpunge _ | revert _ => False
  | _ => True

/-- What has to hold before the operation for it to be applied is answered with a failure
otherwise. -/
def Fails (maybeInstance : Option Instance) (op : InstanceUpdateOperation) : Prop :=
  match maybeInstance, op with
  | none, op => op.NeedsInstance
  | some _, schedule _ => True
  | some i, mesosUpdate _ _ mesosStatus _ =>
    ∀ taskId, mesosStatus.taskId = some taskId → i.tasksMap.lookup taskId = none
  | some i, reservationTimeout _ => i.hasReservation = false
  | some _, _ => False

/-- Only a scheduled instance is required to be provisioned, and only one that is terminal and
decommissioned to be unreserved. -/
def Refused (maybeInstance : Option Instance) (op : InstanceUpdateOperation) : Prop :=
  match maybeInstance, op with
  | some i, provision .. => i.isScheduled = false
  | some i, unreserve _ => (i.state.condition.isTerminal && i.state.goal = .decommissioned) = false
  | _, _ => False

/-- The status leaves its task as it is, and with the time that has passed the instance is to be
expunged. -/
def Unmatched (maybeInstance : Option Instance) (op : InstanceUpdateOperation) : Prop :=
  match maybeInstance, op with
  | some i, mesosUpdate _ condition mesosStatus now =>
    ∃ taskId task j events, mesosStatus.taskId = some taskId ∧
      i.tasksMap.lookup taskId = some task ∧
      task.update i.hasReservation condition mesosStatus now = .noop ∧
      condition = .unreachable ∧ i.state.condition ≠ .unreachableInactive ∧
      instanceUpdateEffectForTask i task now = .expunge j events
  | _, _ => False

end InstanceUpdateOperation

open InstanceUpdateOperation

def InstanceUpdateEffect.isFailure : InstanceUpdateEffect → Bool
  | failure _ => true
  | _ => false

/-- What the resolver makes of an operation that may be refused or fail. -/
structure Resolved (result : Except Thrown InstanceUpdateEffect) (P Q : Prop) : Prop where
  refused : P → result = .error .illegalArgument
  fails : Q → ∃ cause, result = .ok (.failure cause)
  applied : ¬P → ¬Q → ∃ effect, effect.isFailure = false ∧ result = .ok effect

namespace Resolved

variable {result : Except Thrown InstanceUpdateEffect} {effect : InstanceUpdateEffect}
  {cause : UpdateFailure} {P Q : Prop}

theorem of_effect (h : result = .ok effect) (heffect : effect.isFailure = false) (hP : ¬P)
    (hQ : ¬Q) : Resolved result P Q where
  refused hp := absurd hp hP
  fails hq := absurd hq hQ
  applied _ _ := ⟨effect, heffect, h⟩

theorem of_failure (h : result = .ok (.failure cause)) (hP : ¬P) (hQ : Q) :
    Resolved result P Q where
  refused hp := absurd hp hP
  fails _ := ⟨cause, h⟩
  applied _ hq := absurd hQ hq

theorem of_refused (h : result = .error .illegalArgument) (hP : P) (hQ : ¬Q) :
    Resolved result P Q where
  refused _ := h
  fails hq := absurd hq hQ
  applied hp := absurd hP hp

end Resolved

theorem isFailure_effectForTask (i : Instance) (task : Task) (now : Timestamp) :
    (instanceUpdateEffectForTask i task now).isFailure = false := by
  unfold instanceUpdateEffectForTask
  dsimp only
  split_ifs <;> rfl

theorem mesosUpdate_resolved (i : Instance) (condition : Condition)
    {mesosStatus : Mesos.TaskStatus} (now : Timestamp) {taskId : TaskId}
    (hid : mesosStatus.taskId = some taskId) :
    (i.tasksMap.lookup taskId = none ∧
      InstanceUpdater.mesosUpdate i condition mesosStatus now =
        .ok (.failure (.taskNotFound taskId i.instanceId i.tasksMap.keys))) ∨
    (∃ task effect, i.tasksMap.lookup taskId = some task ∧ effect.isFailure = false ∧
      InstanceUpdater.mesosUpdate i condition mesosStatus now = .ok effect) ∨
    ∃ task j events, i.tasksMap.lookup taskId = some task ∧
      task.update i.hasReservation condition mesosStatus now = .noop ∧
      condition = .unreachable ∧ i.state.condition ≠ .unreachableInactive ∧
      instanceUpdateEffectForTask i task now = .expunge j events := by
  unfold InstanceUpdater.mesosUpdate
  simp only [hid]
  cases htask : i.tasksMap.lookup taskId with
  | none => exact .inl ⟨rfl, rfl⟩
  | some task =>
    right
    dsimp only
    cases hupdate : task.update i.hasReservation condition mesosStatus now with
    | update updatedTask =>
      exact .inl ⟨task, _, rfl, isFailure_effectForTask i updatedTask now, rfl⟩
    | noop =>
      split_ifs with hinactive
      · rw [Bool.and_eq_true, decide_eq_true_eq, bne_iff_ne] at hinactive
        have hfailure := isFailure_effectForTask i task now
        cases heffect : instanceUpdateEffectForTask i task now with
        | noop id => exact .inl ⟨task, _, rfl, rfl, rfl⟩
        | update updated oldState events => exact .inl ⟨task, _, rfl, rfl, rfl⟩
        | expunge j events =>
          exact .inr ⟨task, j, events, rfl, hupdate, hinactive.1, hinactive.2, heffect⟩
        | failure cause =>
          rw [heffect] at hfailure
          cases hfailure
      · exact .inl ⟨task, _, rfl, rfl, rfl⟩

/-- An operation whose status leaves the instance to be expunged by the passing of time apart: it is
refused if it is required to be applied to another instance, it fails if its instance is missing or
there already, and otherwise it has an effect. -/
theorem resolve_resolved (clock : Timestamp) (maybeInstance : Option Instance)
    {op : InstanceUpdateOperation} (hparseable : op.Parseable)
    (hmatched : ¬op.Unmatched maybeInstance) :
    Resolved (resolve clock maybeInstance op) (op.Refused maybeInstance)
      (op.Fails maybeInstance) := by
  cases maybeInstance with
  | none =>
    cases op with
    | schedule i => exact .of_effect rfl rfl id id
    | forceExpunge instanceId => exact .of_effect rfl rfl id id
    | revert i => exact .of_effect rfl rfl id id
    | provision => exact .of_failure rfl id trivial
    | rescheduleReserved => exact .of_failure rfl id trivial
    | mesosUpdate => exact .of_failure rfl id trivial
    | reservationTimeout => exact .of_failure rfl id trivial
    | changeGoal => exact .of_failure rfl id trivial
    | reserve => exact .of_failure rfl id trivial
    | unreserve => exact .of_failure rfl id trivial
  | some i =>
    cases op with
    | schedule j => exact .of_failure rfl id trivial
    | forceExpunge instanceId => exact .of_effect rfl rfl id id
    | revert j => exact .of_effect rfl rfl id id
    | rescheduleReserved => exact .of_effect rfl rfl id id
    | reserve => exact .of_effect rfl rfl id id
    | changeGoal instanceId goal =>
      refine .of_effect rfl ?_ id id
      unfold InstanceUpdater.changeGoal
      dsimp only
      split_ifs <;> rfl
    | provision instanceId agentInfo runSpec tasks now =>
      have heq : resolve clock (some i) (.provision instanceId agentInfo runSpec tasks now) =
          (i.provisioned agentInfo runSpec tasks now).bind fun j =>
            .ok (.update j (some i) [InstanceChangedEventsGenerator.updatedCondition j]) := rfl
      rw [Instance.provisioned] at heq
      cases hscheduled : i.isScheduled with
      | true =>
        rw [if_pos hscheduled] at heq
        refine .of_effect heq rfl ?_ id
        exact fun h => by rw [Refused, hscheduled] at h; cases h
      | false =>
        rw [if_neg (by simp [hscheduled])] at heq
        exact .of_refused heq hscheduled id
    | reservationTimeout instanceId =>
      have heq : resolve clock (some i) (.reservationTimeout instanceId) =
          .ok (InstanceUpdater.reservationTimeout i clock) := rfl
      rw [InstanceUpdater.reservationTimeout] at heq
      cases hreserved : i.hasReservation with
      | true =>
        rw [if_pos hreserved] at heq
        refine .of_effect heq rfl id ?_
        exact fun h => by rw [Fails, hreserved] at h; cases h
      | false =>
        rw [if_neg (by simp [hreserved])] at heq
        exact .of_failure heq id hreserved
    | unreserve instanceId =>
      have heq : resolve clock (some i) (.unreserve instanceId) =
          InstanceUpdater.unreserve i clock := rfl
      rw [InstanceUpdater.unreserve] at heq
      cases hdone : i.state.condition.isTerminal && i.state.goal = .decommissioned with
      | true =>
        rw [if_pos hdone] at heq
        refine .of_effect heq rfl ?_ id
        exact fun h => by rw [Refused, hdone] at h; cases h
      | false =>
        rw [if_neg (by simp [hdone])] at heq
        exact .of_refused heq hdone id
    | mesosUpdate j condition mesosStatus now =>
      obtain ⟨taskId, hid⟩ := Option.isSome_iff_exists.mp hparseable
      have heq : resolve clock (some i) (.mesosUpdate j condition mesosStatus now) =
          InstanceUpdater.mesosUpdate i condition mesosStatus now := rfl
      obtain ⟨hnone, h⟩ | ⟨task, effect, htask, hfailure, h⟩ | ⟨task, j, events, hexpunge⟩ :=
        mesosUpdate_resolved i condition now hid
      · refine .of_failure (heq.trans h) id fun taskId' hid' => ?_
        cases hid.symm.trans hid'
        exact hnone
      · refine .of_effect (heq.trans h) hfailure id fun hnone => ?_
        have hlookup := hnone taskId hid
        rw [htask] at hlookup
        cases hlookup
      · exact absurd ⟨taskId, task, j, events, hid, hexpunge⟩ hmatched

namespace Twins

/-- The operation that launches both tasks. -/
def launching : InstanceUpdateOperation :=
  .provision instanceId plainAgent pod provisionedTasks ⟨1⟩

theorem resolve_launching :
    Resolved (resolve ⟨1⟩ (some scheduledInstance) launching)
      (launching.Refused (some scheduledInstance)) (launching.Fails (some scheduledInstance)) :=
  resolve_resolved ⟨1⟩ (some scheduledInstance) trivial id

/-- An instance that is provisioned is not provisioned again, and an exception says so. -/
theorem not_forall_effect :
    ¬∀ maybeInstance,
      trackedInstance.ReachableIf (fun _ event => event.2.Parseable) maybeInstance →
        ∀ clock op, op.Parseable → ∃ effect, resolve clock maybeInstance op = .ok effect := by
  intro hall
  have hreachable : trackedInstance.ReachableIf (fun _ event => event.2.Parseable)
      (InstanceUpdateOpResolver.step (some scheduledInstance) (⟨1⟩, launching)) :=
    .step (e := (⟨1⟩, launching)) (.init init_scheduledInstance) trivial rfl
  obtain ⟨effect, heffect⟩ := hall _ hreachable ⟨2⟩ launching trivial
  cases heffect

end Twins

end Marathon
