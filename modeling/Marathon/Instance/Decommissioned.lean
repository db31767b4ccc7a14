import Marathon.Instance.LiveTasks
import Marathon.State.RootGroup

/-!
# Decommissioned instances

An instance that is decommissioned is to be removed when its tasks are terminal. Nothing keeps
another goal from being set on it in the meantime; and when its reservation is abandoned because
the agent is gone, it is stored without one, although nothing is left to wait for.
-/

namespace Marathon

open Lib InstanceUpdater InstanceUpdateOpResolver

/-- What is stored after a sequence of operations. -/
def stored (m : Option Instance) (events : List (Timestamp × InstanceUpdateOperation)) :
    Option Instance :=
  events.foldl step m

theorem stored_append (m : Option Instance) (before : List (Timestamp × InstanceUpdateOperation))
    (event : Timestamp × InstanceUpdateOperation) :
    stored m (before ++ [event]) = step (stored m before) event := by
  simp only [stored, List.foldl_append, List.foldl_cons, List.foldl_nil]

/-! ## Whether the goal is final -/

def Decommissioned (m : Option Instance) : Prop := ∃ i ∈ m, i.state.goal = .decommissioned

/-- Once the instance is decommissioned it is so as long as it is stored. -/
def GoalIsFinal (m : Option Instance) (events : List (Timestamp × InstanceUpdateOperation)) :
    Prop :=
  ∀ before later after, events = before ++ later ++ after → Decommissioned (stored m before) →
    (∀ l, l <+: later → (stored m (before ++ l)).isSome) →
      Decommissioned (stored m (before ++ later))

/-- The operation gives a decommissioned instance another goal. -/
def Reopens (m : Option Instance) (op : InstanceUpdateOperation) : Prop :=
  Decommissioned m ∧
    match op with
    | .changeGoal _ goal => goal ≠ .decommissioned
    | .rescheduleReserved .. => True
    | .revert i => i.state.goal ≠ .decommissioned
    | _ => False

variable {i j : Instance} {m : Option Instance} {event : Timestamp × InstanceUpdateOperation}

theorem decommissioned_resolve (h : i.state.goal = .decommissioned)
    {clock : Timestamp} {op : InstanceUpdateOperation} (hfinal : ¬Reopens (some i) op)
    {effect : InstanceUpdateEffect} (heffect : resolve clock (some i) op = .ok effect) :
    ∀ j ∈ effect.applyTo (some i), j.state.goal = .decommissioned := by
  have hopen : Decommissioned (some i) := ⟨i, rfl, h⟩
  intro j hj
  cases op with
  | schedule new =>
    cases heffect
    cases hj
    exact h
  | provision id agentInfo runSpec tasks now =>
    -- a decommissioned instance is not scheduled
    have hscheduled : i.isScheduled = false := by
      rw [Instance.isScheduled, h]
      rfl
    have hthrown : i.provisioned agentInfo runSpec tasks now = .error .illegalArgument := by
      rw [Instance.provisioned, hscheduled]
      rfl
    simp only [resolve, updateExistingInstance, hthrown] at heffect
    cases heffect
  | rescheduleReserved id runSpec => exact absurd ⟨hopen, trivial⟩ hfinal
  | mesosUpdate source condition mesosStatus now =>
    obtain ⟨_, rfl⟩ | rfl | ⟨updatedTask, _, rfl⟩ := mesosUpdate_eq_ok heffect
    · cases hj
      exact h
    · cases hj
      exact h
    · cases hupdate : instanceUpdateEffectForTask i updatedTask now with
      | update updated oldState events =>
        rw [hupdate] at hj
        cases hj
        obtain ⟨_, _, hgoal, _⟩ := instanceUpdateEffectForTask_eq_update hupdate
        rw [hgoal]
        exact h
      | expunge =>
        rw [hupdate] at hj
        cases hj
      | noop =>
        rw [hupdate] at hj
        cases hj
        exact h
      | failure =>
        rw [hupdate] at hj
        cases hj
        exact h
  | reservationTimeout id =>
    cases heffect
    unfold reservationTimeout at hj
    split_ifs at hj
    · cases hj
    · cases hj
      exact h
  | changeGoal id goal =>
    have hsame : goal = .decommissioned := not_not.mp fun hother => hfinal ⟨hopen, hother⟩
    cases heffect
    unfold changeGoal at hj
    dsimp only at hj
    split_ifs at hj
    · cases hj
    · cases hj
      exact hsame
  | reserve id reservation agentInfo =>
    cases heffect
    cases hj
    exact h
  | unreserve id =>
    change InstanceUpdater.unreserve i clock = .ok effect at heffect
    unfold InstanceUpdater.unreserve at heffect
    split_ifs at heffect
    cases heffect
    cases hj
  | forceExpunge id =>
    cases heffect
    cases hj
  | revert old =>
    cases heffect
    cases hj
    exact not_not.mp fun hother => hfinal ⟨hopen, hother⟩

theorem decommissioned_step (h : Decommissioned m) (hfinal : ¬Reopens m event.2)
    (hstored : (step m event).isSome) : Decommissioned (step m event) := by
  obtain ⟨i, rfl, hgoal⟩ := h
  unfold step at hstored ⊢
  cases heffect : resolve event.1 (some i) event.2 with
  | error thrown => exact ⟨i, rfl, hgoal⟩
  | ok effect =>
    simp only [heffect] at hstored
    obtain ⟨j, hj⟩ := Option.isSome_iff_exists.mp hstored
    exact ⟨j, hj, decommissioned_resolve hgoal hfinal heffect j hj⟩

theorem reopened_step (h : Reopens m event.2) :
    (step m event).isSome ∧ ¬Decommissioned (step m event) := by
  obtain ⟨⟨i, rfl, _⟩, hop⟩ := h
  obtain ⟨clock, op⟩ := event
  have hother : ∀ j : Instance, j.state.goal ≠ .decommissioned →
      step (some i) (clock, op) = some j →
        (step (some i) (clock, op)).isSome ∧ ¬Decommissioned (step (some i) (clock, op)) := by
    intro j hj hstep
    rw [hstep]
    refine ⟨rfl, ?_⟩
    rintro ⟨k, hk, hgoal⟩
    cases hk
    exact hj hgoal
  cases op with
  | changeGoal id goal =>
    have hkept : isTerminalDecomissionedAndEphemeral
        { i with state := { i.state with goal := goal } } = false := by
      unfold isTerminalDecomissionedAndEphemeral
      rw [decide_eq_false (show ¬goal = .decommissioned from hop), Bool.and_false, Bool.false_and]
    apply hother { i with state := { i.state with goal := goal } } hop
    simp only [step, resolve, updateExistingInstance, changeGoal, hkept]
    rfl
  | rescheduleReserved id runSpec =>
    exact hother { i with state := ⟨.scheduled, clock, none, none, .running⟩, runSpec := runSpec }
      Goal.noConfusion rfl
  | revert old => exact hother old hop rfl
  | _ => exact hop.elim

/-- **The goal of a decommissioned instance is final exactly in the runs in which no operation
gives it another one.** -/
theorem goalIsFinal_iff (m : Option Instance)
    (events : List (Timestamp × InstanceUpdateOperation)) :
    GoalIsFinal m events ↔
      ∀ before event after, events = before ++ event :: after →
        ¬Reopens (stored m before) event.2 := by
  constructor
  · intro hfinal before event after hevents hreopens
    obtain ⟨hstored, hother⟩ := reopened_step hreopens
    rw [← stored_append] at hstored hother
    apply hother
    apply hfinal before [event] after
    · rw [hevents, List.append_assoc, List.singleton_append]
    · exact hreopens.1
    · intro l hl
      -- the instance is stored before the operation and after it
      rcases List.prefix_cons_iff.mp hl with rfl | ⟨rest, rfl, hrest⟩
      · obtain ⟨i, hi, _⟩ := hreopens.1
        rw [List.append_nil, Option.mem_def.mp hi]
        rfl
      · rw [List.prefix_nil.mp hrest]
        exact hstored
  · intro hnone before later after hevents hbefore
    induction later using List.reverseRecOn generalizing after with
    | nil =>
      intro _
      rwa [List.append_nil]
    | append_singleton later event ih =>
      intro hstored
      have hlater : Decommissioned (stored m (before ++ later)) := by
        apply ih (event :: after)
        · rw [hevents]
          simp only [List.append_assoc, List.singleton_append]
        · exact fun l hl => hstored l (hl.trans (List.prefix_append _ _))
      have hlast := hstored (later ++ [event]) List.prefix_rfl
      rw [← List.append_assoc, stored_append] at hlast ⊢
      apply decommissioned_step hlater _ hlast
      apply hnone (before ++ later) event after
      rw [hevents]
      simp only [List.append_assoc, List.singleton_append]

/-! ## Whether a finished instance is removed -/

/-- Nothing is left of the instance: it is decommissioned, has no reservation, and its tasks are
terminal. -/
def Finished (i : Instance) : Prop :=
  (∀ task ∈ i.tasks, task.isTerminal) ∧ i.state.goal = .decommissioned ∧ i.reservation = none

theorem isTerminalDecomissionedAndEphemeral_iff (i : Instance) :
    isTerminalDecomissionedAndEphemeral i ↔ Finished i := by
  unfold isTerminalDecomissionedAndEphemeral Finished
  simp only [Bool.and_eq_true, List.all_eq_true, decide_eq_true_eq, Option.isNone_iff_eq_none,
    and_assoc]

/-- No operation stores a finished instance. -/
def RemovesFinished (m : Option Instance) (events : List (Timestamp × InstanceUpdateOperation)) :
    Prop :=
  ∀ before event after, events = before ++ event :: after → ∀ i oldState changes,
    resolve event.1 (stored m before) event.2 = .ok (.update i oldState changes) → ¬Finished i

/-- All tasks are terminal, and the operator has said of one that its agent is gone. -/
def GoneByOperator (tasks : List Task) : Prop :=
  (∀ task ∈ tasks, task.isTerminal) ∧
    ∃ task ∈ tasks, ∃ status ∈ task.status.mesosStatus, status.state = .goneByOperator

theorem shouldAbandonReservation_iff (i : Instance) :
    shouldAbandonReservation i ↔ i.hasReservation ∧ GoneByOperator i.tasks := by
  unfold shouldAbandonReservation Instance.hasReservation GoneByOperator
  simp only [Bool.and_eq_true, List.all_eq_true, List.any_eq_true, Option.any_eq_true,
    Option.mem_def, decide_eq_true_eq]
  tauto

/-- The operation stores an instance that is finished: one that is so when it is stored first or
put back, or one that is decommissioned and loses its reservation with its agent. -/
def LeavesFinished (m : Option Instance) (event : Timestamp × InstanceUpdateOperation) : Prop :=
  match event.2 with
  | .schedule i => m = none ∧ Finished i
  | .revert i => Finished i
  | .mesosUpdate _ condition mesosStatus now =>
    ∃ i ∈ m, i.state.goal = .decommissioned ∧ i.hasReservation ∧
      ∃ updatedTask, Reports i condition mesosStatus now updatedTask ∧
        Changes i updatedTask now ∧ GoneByOperator (applyTaskUpdate i updatedTask now).tasks
  | _ => False

theorem leavesFinished_of_update {oldState : Option Instance} {changes : List MarathonEvent}
    (h : resolve event.1 m event.2 = .ok (.update j oldState changes)) (hfinished : Finished j) :
    LeavesFinished m event := by
  obtain ⟨clock, op⟩ := event
  cases op with
  | schedule i =>
    cases m with
    | none =>
      cases Except.ok.inj h
      exact ⟨rfl, hfinished⟩
    | some existing => cases h
  | revert i =>
    cases Except.ok.inj h
    exact hfinished
  | forceExpunge id => cases m <;> cases h
  | provision id agentInfo runSpec tasks now =>
    obtain ⟨rfl, hnone⟩ | ⟨i, rfl, hok⟩ := updateExistingInstance_eq_ok h
    · cases hnone
    · -- only a scheduled instance is provisioned, and its goal is to be running
      unfold Instance.provisioned at hok
      split_ifs at hok with hscheduled
      · rw [Instance.isScheduled, Bool.and_eq_true, decide_eq_true_eq] at hscheduled
        cases Except.ok.inj hok
        exact absurd (hscheduled.1.symm.trans hfinished.2.1) Goal.noConfusion
      · cases hok
  | rescheduleReserved id runSpec =>
    obtain ⟨rfl, hnone⟩ | ⟨i, rfl, hok⟩ := updateExistingInstance_eq_ok h
    · cases hnone
    · cases Except.ok.inj hok
      exact absurd hfinished.2.1 Goal.noConfusion
  | mesosUpdate source condition mesosStatus now =>
    obtain ⟨rfl, hnone⟩ | ⟨i, rfl, hok⟩ := updateExistingInstance_eq_ok h
    · cases hnone
    · obtain ⟨_, hfailure⟩ | hnoop | ⟨updatedTask, hreports, heffect⟩ := mesosUpdate_eq_ok hok
      · cases hfailure
      · cases hnoop
      · obtain ⟨hchanges, hkept, hgoal, htasks, habandon | rfl⟩ :=
          instanceUpdateEffectForTask_eq_update heffect.symm
        · obtain ⟨hreserved, hgone⟩ := (shouldAbandonReservation_iff _).mp habandon
          rw [hasReservation_applyTaskUpdate] at hreserved
          exact ⟨i, rfl, hgoal.symm.trans hfinished.2.1, hreserved, updatedTask, hreports, hchanges,
            hgone⟩
        · exact absurd ((isTerminalDecomissionedAndEphemeral_iff _).mpr hfinished) hkept
  | reservationTimeout id =>
    obtain ⟨rfl, hnone⟩ | ⟨i, rfl, hok⟩ := updateExistingInstance_eq_ok h
    · cases hnone
    · have heffect := Except.ok.inj hok
      unfold reservationTimeout at heffect
      split_ifs at heffect
  | changeGoal id goal =>
    obtain ⟨rfl, hnone⟩ | ⟨i, rfl, hok⟩ := updateExistingInstance_eq_ok h
    · cases hnone
    · have heffect := Except.ok.inj hok
      unfold changeGoal at heffect
      dsimp only at heffect
      split_ifs at heffect with hexpunge
      cases heffect
      exact absurd ((isTerminalDecomissionedAndEphemeral_iff _).mpr hfinished) hexpunge
  | reserve id reservation agentInfo =>
    obtain ⟨rfl, hnone⟩ | ⟨i, rfl, hok⟩ := updateExistingInstance_eq_ok h
    · cases hnone
    · cases Except.ok.inj hok
      cases hfinished.2.2
  | unreserve id =>
    obtain ⟨rfl, hnone⟩ | ⟨i, rfl, hok⟩ := updateExistingInstance_eq_ok h
    · cases hnone
    · unfold InstanceUpdater.unreserve at hok
      split_ifs at hok
      cases hok

theorem instanceUpdateEffectForTask_abandons {updatedTask : Task} {now : Timestamp}
    (hgoal : i.state.goal = .decommissioned) (hreserved : i.hasReservation)
    (hchanges : Changes i updatedTask now)
    (hgone : GoneByOperator (applyTaskUpdate i updatedTask now).tasks) :
    ∃ j changes, instanceUpdateEffectForTask i updatedTask now = .update j (some i) changes ∧
      Finished j := by
  have hkept : (applyTaskUpdate i updatedTask now).hasReservation := by
    rwa [hasReservation_applyTaskUpdate]
  -- a terminal task is not unreachable
  have hreachable : readyToExpungeUnreachable (applyTaskUpdate i updatedTask now) now = false := by
    unfold readyToExpungeUnreachable
    split
    · rw [List.any_eq_false]
      intro task htask hexpired
      have hterminal := hgone.1 task htask
      rw [Task.isUnreachableExpired, Bool.and_eq_true, Bool.or_eq_true, decide_eq_true_eq,
        decide_eq_true_eq] at hexpired
      rw [Task.isTerminal] at hterminal
      rcases hexpired.1 with hcondition | hcondition
      · rw [hcondition] at hterminal
        cases hterminal
      · rw [hcondition] at hterminal
        cases hterminal
    · rfl
  have hephemeral :
      ¬isTerminalDecomissionedAndEphemeral (applyTaskUpdate i updatedTask now) := by
    rw [isTerminalDecomissionedAndEphemeral_iff]
    rintro ⟨_, _, hnone⟩
    rw [Instance.hasReservation, hnone] at hkept
    cases hkept
  have habandon := (shouldAbandonReservation_iff _).mpr ⟨hkept, hgone⟩
  unfold instanceUpdateEffectForTask
  rw [if_neg (changes_iff.mp hchanges), if_neg (by rw [hreachable]; exact Bool.noConfusion),
    if_neg hephemeral, if_pos habandon]
  exact ⟨_, _, rfl, hgone.1, (goal_applyTaskUpdate i updatedTask now).trans hgoal, rfl⟩

theorem update_of_leavesFinished (h : LeavesFinished m event) :
    ∃ j oldState changes, resolve event.1 m event.2 = .ok (.update j oldState changes) ∧
      Finished j := by
  obtain ⟨clock, op⟩ := event
  cases op with
  | schedule i =>
    obtain ⟨rfl, hfinished⟩ := h
    exact ⟨i, none, _, rfl, hfinished⟩
  | revert i => exact ⟨i, none, _, rfl, h⟩
  | mesosUpdate source condition mesosStatus now =>
    obtain ⟨i, hi, hgoal, hreserved, updatedTask, hreports, hchanges, hgone⟩ := h
    obtain rfl := Option.mem_def.mp hi
    obtain ⟨j, changes, heffect, hfinished⟩ :=
      instanceUpdateEffectForTask_abandons hgoal hreserved hchanges hgone
    exact ⟨j, some i, changes, mesosUpdate_of_reports hreports heffect, hfinished⟩
  | _ => exact h.elim

/-- What is stored has been stored by an operation. -/
theorem exists_update_of_step (h : step m event = some j) :
    m = some j ∨ ∃ oldState changes,
      resolve event.1 m event.2 = .ok (.update j oldState changes) := by
  unfold step at h
  split at h
  · rename_i effect heffect
    cases effect with
    | update i oldState changes =>
      cases h
      exact .inr ⟨oldState, changes, heffect⟩
    | expunge => cases h
    | noop => exact .inl h
    | failure => exact .inl h
  · exact .inl h

theorem RemovesFinished.not_finished {events : List (Timestamp × InstanceUpdateOperation)}
    (h : RemovesFinished none events) {before : List (Timestamp × InstanceUpdateOperation)}
    (hbefore : before <+: events) : ∀ i ∈ stored none before, ¬Finished i := by
  induction before using List.reverseRecOn with
  | nil =>
    intro i hi
    cases hi
  | append_singleton before event ih =>
    intro i hi
    rw [stored_append] at hi
    obtain hold | ⟨oldState, changes, heffect⟩ := exists_update_of_step hi
    · exact ih ((List.prefix_append _ _).trans hbefore) i hold
    · obtain ⟨after, hevents⟩ := hbefore
      apply h before event after _ i oldState changes heffect
      rw [← hevents, List.append_assoc, List.singleton_append]

/-- **Finished instances are removed exactly in the runs in which no operation leaves one: then
what is stored is never finished.** -/
theorem removesFinished_iff (events : List (Timestamp × InstanceUpdateOperation)) :
    (RemovesFinished none events ↔
      ∀ before event after, events = before ++ event :: after →
        ¬LeavesFinished (stored none before) event) ∧
      (RemovesFinished none events →
        ∀ before, before <+: events → ∀ i ∈ stored none before, ¬Finished i) := by
  refine ⟨⟨?_, ?_⟩, fun hremoves before => hremoves.not_finished⟩
  · intro hremoves before event after hevents hleaves
    obtain ⟨j, oldState, changes, heffect, hfinished⟩ := update_of_leavesFinished hleaves
    exact hremoves before event after hevents j oldState changes heffect hfinished
  · intro hnone before event after hevents j oldState changes heffect hfinished
    exact hnone before event after hevents (leavesFinished_of_update heffect hfinished)

namespace LostAgent

/-! ## A resident instance whose agent is gone -/

def runSpec : RunSpec := .app (plainApp ⟨["db"]⟩ ∅)

def instanceId : InstanceId := ⟨⟨["db"]⟩, .instance, ⟨0⟩⟩

def taskId : TaskId := .ofContainer instanceId none

def scheduledInstance : Instance := .scheduled runSpec instanceId ⟨1⟩

def reservation : Reservation := ⟨[], .new none, .simplifiedId instanceId⟩

def provisionedTasks : Dict TaskId Task :=
  Dict.ofBindings [(taskId, Tasks.provisionedTask taskId ⟨"agent", [], []⟩ ⟨0⟩ ⟨3⟩)]

/-- The instance is reserved, launched and decommissioned. -/
def decommissioningRun : List (Timestamp × InstanceUpdateOperation) :=
  [(⟨1⟩, .schedule scheduledInstance), (⟨2⟩, .reserve instanceId reservation plainAgent),
    (⟨3⟩, .provision instanceId plainAgent runSpec provisionedTasks ⟨3⟩),
    (⟨4⟩, .mesosUpdateOf scheduledInstance (plainStatus taskId .running) ⟨4⟩),
    (⟨5⟩, .changeGoal instanceId .decommissioned)]

def isDecommissioned (m : Option Instance) : Bool := m.any (·.state.goal = .decommissioned)

theorem isDecommissioned_iff (m : Option Instance) : isDecommissioned m ↔ Decommissioned m := by
  simp only [isDecommissioned, Decommissioned, Option.any_eq_true, Option.mem_def,
    decide_eq_true_eq]

/-- When the app is scaled down afterwards the instance is stopped instead. -/
theorem not_forall_goalIsFinal :
    ¬∀ (m : Option Instance) (events : List (Timestamp × InstanceUpdateOperation)),
      (∀ event ∈ events, ∀ i, event.2 ≠ .revert i) → GoalIsFinal m events := by
  intro h
  have hlisted : ∀ event ∈ decommissioningRun ++ [(⟨6⟩, .changeGoal instanceId .stopped)],
      ∀ i, event.2 ≠ .revert i := by
    simp [decommissioningRun, InstanceUpdateOperation.mesosUpdateOf]
  have hbefore : isDecommissioned (stored none decommissioningRun) := by decide +kernel
  have hafter : ¬isDecommissioned (stored none
      (decommissioningRun ++ [(⟨6⟩, .changeGoal instanceId .stopped)])) := by decide +kernel
  have hfinal := h none _ hlisted decommissioningRun [(⟨6⟩, .changeGoal instanceId .stopped)] []
    (List.append_nil _).symm ((isDecommissioned_iff _).mp hbefore)
  refine hafter ((isDecommissioned_iff _).mpr (hfinal ?_))
  intro l hl
  rcases List.prefix_cons_iff.mp hl with rfl | ⟨rest, rfl, hrest⟩
  · decide +kernel
  · rw [List.prefix_nil.mp hrest]
    decide +kernel

/-- When the operator says that the agent is gone, the reservation is abandoned and the instance
is left without tasks to wait for. -/
theorem not_forall_removesFinished :
    ¬∀ events : List (Timestamp × InstanceUpdateOperation),
      (∀ event ∈ events, (∀ i, event.2 = .schedule i → i = scheduledInstance) ∧
        ∀ i, event.2 ≠ .revert i) → RemovesFinished none events := by
  intro h
  have hlisted : ∀ event ∈ decommissioningRun ++
      [(⟨6⟩, .mesosUpdateOf scheduledInstance (plainStatus taskId .goneByOperator) ⟨6⟩)],
      (∀ i, event.2 = .schedule i → i = scheduledInstance) ∧ ∀ i, event.2 ≠ .revert i := by
    simp [decommissioningRun, InstanceUpdateOperation.mesosUpdateOf]
  have hkept := (h _ hlisted).not_finished List.prefix_rfl
  have hfinished : (stored none (decommissioningRun ++
      [(⟨6⟩, .mesosUpdateOf scheduledInstance (plainStatus taskId .goneByOperator) ⟨6⟩)])).any
        isTerminalDecomissionedAndEphemeral := by decide +kernel
  obtain ⟨i, hi, hterminal⟩ := (Option.any_eq_true _ _).mp hfinished
  exact hkept i hi ((isTerminalDecomissionedAndEphemeral_iff i).mp hterminal)

end LostAgent

end Marathon
