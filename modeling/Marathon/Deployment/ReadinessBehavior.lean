import Marathon.Deployment.ImmediateKills

/-!
# The readiness behaviour

The actors that start instances share what they make of the events about them: which instances
are healthy, and which are ready. What the actor does then is left to a hook. Here the behaviour
stands by itself; the actor that replaces instances is shown to have it.
-/

namespace Marathon.Deployment

open Lib
open TaskReplaceActor (InstanceChanged InstanceHealthChanged hasHealthChecks hasReadinessChecks
  isRunningNew)

/-- The event of an instance's change, as it is published. -/
def instanceChangedOf (i : Instance) : InstanceChanged where
  id := i.instanceId
  runSpecVersion := i.runSpecVersion
  runSpecId := i.runSpecId
  condition := i.state.condition
  changed := i

structure ReadinessBehavior where
  healthy : Finset InstanceId
  ready : Finset InstanceId
deriving DecidableEq

variable {event : InstanceChanged}

namespace ReadinessBehavior

inductive Message
  | instanceChanged (event : InstanceChanged)
  | instanceHealthChanged (event : InstanceHealthChanged)
  | readinessCheckStreamDone
  | readinessCheckResult (taskId : TaskId) (ready : Bool)

def empty : ReadinessBehavior := ⟨∅, ∅⟩

def targetCountReached (s : ReadinessBehavior) (count : ℤ) : Prop :=
  (s.healthy.card : ℤ) = count ∧ (s.ready.card : ℤ) = count

instance (s : ReadinessBehavior) (count : ℤ) : Decidable (s.targetCountReached count) :=
  inferInstanceAs (Decidable (_ ∧ _))

/-- The instances that are both. -/
def both (s : ReadinessBehavior) : Finset InstanceId := s.healthy ∩ s.ready

def instanceTerminated (s : ReadinessBehavior) (id : InstanceId) : ReadinessBehavior :=
  ⟨s.healthy.erase id, s.ready.erase id⟩

/-! ## The behaviour -/

section

variable (runSpec : RunSpec)

/-- Without health checks. Handlers return the new sets, and the instance for which the hook
is called; `none` means that the message is left to the actor. -/
def instanceRunBehavior (s : ReadinessBehavior) :
    Message → Option (ReadinessBehavior × Option InstanceId)
  | .instanceChanged event =>
    if isRunningNew runSpec event then
      let id := event.changed.instanceId
      if hasReadinessChecks runSpec then some (⟨insert id s.healthy, s.ready⟩, none)
      else some (⟨insert id s.healthy, insert id s.ready⟩, some id)
    else none
  | _ => none

def instanceHealthBehavior (s : ReadinessBehavior) :
    Message → Option (ReadinessBehavior × Option InstanceId)
  | .instanceChanged event =>
    if hasReadinessChecks runSpec && isRunningNew runSpec event then some (s, none) else none
  | .instanceHealthChanged event =>
    if event.runSpecVersion = runSpec.version ∧ event.runSpecId = runSpec.id ∧
        event.healthy = some true ∧ event.id ∉ s.healthy then
      let ready := if hasReadinessChecks runSpec then s.ready else insert event.id s.ready
      some (⟨insert event.id s.healthy, ready⟩, some event.id)
    else none
  | _ => none

def readinessCheckBehavior (s : ReadinessBehavior) :
    Message → Option (ReadinessBehavior × Option InstanceId)
  | .readinessCheckStreamDone => some (s, none)
  | .readinessCheckResult taskId ready =>
    if ready then some (⟨s.healthy, insert taskId.instanceId s.ready⟩, some taskId.instanceId)
    else some (s, none)
  | _ => none

def readinessBehavior (s : ReadinessBehavior) (message : Message) :
    Option (ReadinessBehavior × Option InstanceId) :=
  let startBehavior :=
    if hasHealthChecks runSpec then s.instanceHealthBehavior runSpec message
    else s.instanceRunBehavior runSpec message
  startBehavior <|>
    if hasReadinessChecks runSpec then s.readinessCheckBehavior message else none

/-- What a former run has started is healthy without health checks, and ready without
readiness checks, whatever its condition is. -/
def reconcileHealthAndReadinessCheck (s : ReadinessBehavior) (i : Instance) : ReadinessBehavior where
  healthy :=
    if hasHealthChecks runSpec && !i.state.healthy.getD false then s.healthy
    else insert i.instanceId s.healthy
  ready := if hasReadinessChecks runSpec then s.ready else insert i.instanceId s.ready

/-! ## What a message shows -/

/-- An event of the instance's health that says that it is healthy. -/
def isHealthyNew (event : InstanceHealthChanged) : Bool :=
  event.runSpecVersion = runSpec.version && event.runSpecId = runSpec.id &&
    event.healthy = some true

def showsHealthy : Message → Finset InstanceId
  | .instanceChanged event =>
    if !hasHealthChecks runSpec && isRunningNew runSpec event then {event.changed.instanceId} else ∅
  | .instanceHealthChanged event =>
    if hasHealthChecks runSpec && isHealthyNew runSpec event then {event.id} else ∅
  | _ => ∅

/-- Without readiness checks an instance is ready with being healthy. -/
def showsReady : Message → Finset InstanceId
  | .readinessCheckResult taskId ready =>
    if hasReadinessChecks runSpec && ready then {taskId.instanceId} else ∅
  | message => if hasReadinessChecks runSpec then ∅ else showsHealthy runSpec message

def showsRunning : Message → Finset InstanceId
  | .instanceChanged event => if event.condition = .running then {event.id} else ∅
  | _ => ∅

def showsTerminal : Message → Finset InstanceId
  | .instanceChanged event => if event.condition.isTerminal then {event.id} else ∅
  | _ => ∅

def noted (s : ReadinessBehavior) (message : Message) : ReadinessBehavior :=
  ⟨s.healthy ∪ showsHealthy runSpec message, s.ready ∪ showsReady runSpec message⟩

end

variable {runSpec : RunSpec} {s s' : ReadinessBehavior} {message : Message}
  {hook : Option InstanceId}

theorem isRunningNew_iff :
    isRunningNew runSpec event = true ↔ event.runSpecVersion = runSpec.version ∧
      event.runSpecId = runSpec.id ∧ event.condition = .running := by
  simp only [isRunningNew, Bool.and_eq_true, decide_eq_true_eq, and_assoc]

theorem isHealthyNew_iff {event : InstanceHealthChanged} :
    isHealthyNew runSpec event = true ↔ event.runSpecVersion = runSpec.version ∧
      event.runSpecId = runSpec.id ∧ event.healthy = some true := by
  simp only [isHealthyNew, Bool.and_eq_true, decide_eq_true_eq, and_assoc]

theorem instanceRunBehavior_eq_some (hchecks : hasHealthChecks runSpec = false)
    (h : s.instanceRunBehavior runSpec message = some (s', hook)) :
    s' = s.noted runSpec message := by
  cases message with
  | instanceChanged event =>
    simp only [instanceRunBehavior] at h
    split_ifs at h with hrunning hready
    · obtain rfl := (Prod.mk.inj (Option.some.inj h)).1
      simp [noted, showsHealthy, showsReady, hchecks, hrunning, hready]
    · obtain rfl := (Prod.mk.inj (Option.some.inj h)).1
      simp [noted, showsHealthy, showsReady, hchecks, hrunning, hready]
  | _ => cases h

theorem instanceHealthBehavior_eq_some (hchecks : hasHealthChecks runSpec = true)
    (h : s.instanceHealthBehavior runSpec message = some (s', hook)) :
    s' = s.noted runSpec message := by
  cases message with
  | instanceChanged event =>
    simp only [instanceHealthBehavior] at h
    split_ifs at h
    obtain rfl := (Prod.mk.inj (Option.some.inj h)).1
    simp [noted, showsHealthy, showsReady, hchecks]
  | instanceHealthChanged event =>
    simp only [instanceHealthBehavior] at h
    split_ifs at h with hhealthy hready
    · obtain rfl := (Prod.mk.inj (Option.some.inj h)).1
      have hnew : isHealthyNew runSpec event = true :=
        isHealthyNew_iff.mpr ⟨hhealthy.1, hhealthy.2.1, hhealthy.2.2.1⟩
      simp [noted, showsHealthy, showsReady, hchecks, hnew, hready]
    · obtain rfl := (Prod.mk.inj (Option.some.inj h)).1
      have hnew : isHealthyNew runSpec event = true :=
        isHealthyNew_iff.mpr ⟨hhealthy.1, hhealthy.2.1, hhealthy.2.2.1⟩
      simp [noted, showsHealthy, showsReady, hchecks, hnew, hready]
  | _ => cases h

theorem readinessCheckBehavior_eq_some (hchecks : hasReadinessChecks runSpec = true)
    (h : s.readinessCheckBehavior message = some (s', hook)) : s' = s.noted runSpec message := by
  cases message with
  | readinessCheckStreamDone =>
    obtain rfl := (Prod.mk.inj (Option.some.inj h)).1
    simp [noted, showsHealthy, showsReady]
  | readinessCheckResult taskId ready =>
    simp only [readinessCheckBehavior] at h
    split_ifs at h with hready
    · obtain rfl := (Prod.mk.inj (Option.some.inj h)).1
      simp [noted, showsHealthy, showsReady, hchecks, hready]
    · obtain rfl := (Prod.mk.inj (Option.some.inj h)).1
      simp [noted, showsHealthy, showsReady, hready]
  | _ => cases h

theorem readinessBehavior_eq_some_iff :
    s.readinessBehavior runSpec message = some (s', hook) ↔
      (if hasHealthChecks runSpec then s.instanceHealthBehavior runSpec message
        else s.instanceRunBehavior runSpec message) = some (s', hook) ∨
      (if hasHealthChecks runSpec then s.instanceHealthBehavior runSpec message
        else s.instanceRunBehavior runSpec message) = none ∧
        hasReadinessChecks runSpec = true ∧
          s.readinessCheckBehavior message = some (s', hook) := by
  unfold readinessBehavior
  rw [Option.orElse_eq_orElse, Option.orElse_eq_or, Option.or_eq_some_iff]
  refine or_congr_right (and_congr_right fun _ => ?_)
  cases hasReadinessChecks runSpec <;> simp

/-- A message that is handled adds just the instances that it shows. -/
theorem readinessBehavior_eq_some (h : s.readinessBehavior runSpec message = some (s', hook)) :
    s' = s.noted runSpec message := by
  obtain hstart | ⟨-, hchecks, hready⟩ := readinessBehavior_eq_some_iff.mp h
  · split_ifs at hstart with hchecks
    · exact instanceHealthBehavior_eq_some hchecks hstart
    · exact instanceRunBehavior_eq_some (Bool.eq_false_iff.mpr hchecks) hstart
  · exact readinessCheckBehavior_eq_some hchecks hready

/-! ## Terminal instances -/

theorem showsHealthy_of_ne_running (h : event.condition ≠ .running) :
    showsHealthy runSpec (.instanceChanged event) = ∅ := by
  have hnot : isRunningNew runSpec event = false := by
    rw [← Bool.not_eq_true, isRunningNew_iff]
    exact fun hrunning => h hrunning.2.2
  simp [showsHealthy, hnot]

theorem showsReady_of_ne_running (h : event.condition ≠ .running) :
    showsReady runSpec (.instanceChanged event) = ∅ := by
  simp [showsReady, showsHealthy_of_ne_running h]

/-- No event but one about a running instance is handled here. -/
theorem readinessBehavior_of_ne_running (h : event.condition ≠ .running) :
    s.readinessBehavior runSpec (.instanceChanged event) = none := by
  have hnot : isRunningNew runSpec event = false := by
    rw [← Bool.not_eq_true, isRunningNew_iff]
    exact fun hrunning => h hrunning.2.2
  simp [readinessBehavior, instanceHealthBehavior, instanceRunBehavior, readinessCheckBehavior, hnot]

/-! ## What an actor makes of a message -/

/-- The sets after a message, as the actors with the behaviour leave them. -/
inductive Tracks (runSpec : RunSpec) (s : ReadinessBehavior) :
    Message → ReadinessBehavior → Prop
  | kept {message : Message} : Tracks runSpec s message s
  | noted {message : Message} : Tracks runSpec s message (s.noted runSpec message)
  | terminated {event : InstanceChanged} :
    Tracks runSpec s (.instanceChanged event) (s.instanceTerminated event.id)

theorem Tracks.of_eq_some (h : s.readinessBehavior runSpec message = some (s', hook)) :
    Tracks runSpec s message s' := by
  rw [readinessBehavior_eq_some h]
  exact .noted

/-- One of the sets is contained in the other. -/
def Comparable (s : ReadinessBehavior) : Prop := s.healthy ⊆ s.ready ∨ s.ready ⊆ s.healthy

instance (s : ReadinessBehavior) : Decidable s.Comparable :=
  inferInstanceAs (Decidable (_ ∨ _))

/-- Sets of one size are then one set. -/
theorem Comparable.eq_of_targetCountReached (h : s.Comparable) {count : ℤ}
    (hreached : s.targetCountReached count) : s.healthy = s.ready := by
  have hcard : s.healthy.card = s.ready.card := by
    have heq := hreached.1.trans hreached.2.symm
    omega
  cases h with
  | inl hle => exact Finset.eq_of_subset_of_card_le hle hcard.ge
  | inr hle => exact (Finset.eq_of_subset_of_card_le hle hcard.le).symm

theorem Comparable.instanceTerminated (h : s.Comparable) (id : InstanceId) :
    (s.instanceTerminated id).Comparable :=
  h.imp (Finset.erase_subset_erase id) (Finset.erase_subset_erase id)

theorem Comparable.tracks (h : s.Comparable) (hnoted : (s.noted runSpec message).Comparable)
    (htracks : Tracks runSpec s message s') : s'.Comparable := by
  cases htracks with
  | kept => exact h
  | noted => exact hnoted
  | terminated => exact h.instanceTerminated _

end ReadinessBehavior

/-! ## The actor that replaces instances -/

namespace TaskReplaceActor

variable {runSpec : RunSpec} (a : TaskReplaceActor runSpec)

def readiness : ReadinessBehavior := ⟨a.healthy, a.ready⟩

/-- What the behaviour gets to see of the actor's messages. -/
def Message.readiness : Message runSpec → Option ReadinessBehavior.Message
  | .instanceChanged event => some (.instanceChanged event)
  | .instanceHealthChanged event => some (.instanceHealthChanged event)
  | .readinessCheckStreamDone => some .readinessCheckStreamDone
  | .readinessCheckResult taskId ready => some (.readinessCheckResult taskId ready)
  | _ => none

/-- The actor with new sets, after the hook has been called. -/
def noted (outcome : ReadinessBehavior × Option InstanceId) : TaskReplaceActor runSpec :=
  let a := { a with healthy := outcome.1.healthy, ready := outcome.1.ready }
  match outcome.2 with
  | some id => a.instanceConditionChanged id
  | none => a

theorem instanceRunBehavior_eq (message : Message runSpec) :
    a.instanceRunBehavior message =
      (message.readiness.bind (a.readiness.instanceRunBehavior runSpec)).map a.noted := by
  cases message with
  | instanceChanged event =>
    simp only [instanceRunBehavior, Message.readiness, Option.bind_some,
      ReadinessBehavior.instanceRunBehavior]
    split_ifs <;> rfl
  | _ => rfl

theorem instanceHealthBehavior_eq (message : Message runSpec) :
    a.instanceHealthBehavior message =
      (message.readiness.bind (a.readiness.instanceHealthBehavior runSpec)).map a.noted := by
  cases message with
  | instanceChanged event =>
    simp only [instanceHealthBehavior, Message.readiness, Option.bind_some,
      ReadinessBehavior.instanceHealthBehavior]
    split_ifs <;> rfl
  | instanceHealthChanged event =>
    simp only [instanceHealthBehavior, Message.readiness, Option.bind_some,
      ReadinessBehavior.instanceHealthBehavior]
    split_ifs <;> first | rfl | contradiction
  | _ => rfl

theorem readinessCheckBehavior_eq (message : Message runSpec) :
    a.readinessCheckBehavior message =
      (message.readiness.bind a.readiness.readinessCheckBehavior).map a.noted := by
  cases message with
  | readinessCheckResult taskId ready =>
    simp only [readinessCheckBehavior, Message.readiness, Option.bind_some,
      ReadinessBehavior.readinessCheckBehavior]
    split_ifs <;> rfl
  | _ => rfl

/-- The actor has the behaviour. -/
theorem readinessBehavior_eq (message : Message runSpec) :
    a.readinessBehavior message =
      (message.readiness.bind (a.readiness.readinessBehavior runSpec)).map a.noted := by
  unfold readinessBehavior
  rw [instanceHealthBehavior_eq, instanceRunBehavior_eq, readinessCheckBehavior_eq]
  cases message.readiness with
  | none => cases hasHealthChecks runSpec <;> cases hasReadinessChecks runSpec <;> rfl
  | some message =>
    simp only [Option.bind_some, ReadinessBehavior.readinessBehavior]
    cases hasHealthChecks runSpec <;> cases hasReadinessChecks runSpec <;>
      simp only [Option.orElse_eq_orElse, Option.orElse_eq_or, Option.map_or, if_true,
        Bool.false_eq_true, if_false, Option.map_none]

theorem readiness_killNextOldInstance : a.killNextOldInstance.readiness = a.readiness := by
  unfold killNextOldInstance
  split <;> rfl

theorem readiness_checkFinished : a.checkFinished.readiness = a.readiness := by
  unfold checkFinished
  split <;> rfl

theorem readiness_launchInstances : a.launchInstances.readiness = a.readiness := by
  unfold launchInstances
  split <;> rfl

theorem readiness_instanceConditionChanged (id : InstanceId) :
    (a.instanceConditionChanged id).readiness = a.readiness := by
  unfold instanceConditionChanged
  split
  · rw [readiness_checkFinished, readiness_killNextOldInstance]
  · exact readiness_checkFinished a

theorem readiness_noted (outcome : ReadinessBehavior × Option InstanceId) :
    (a.noted outcome).readiness = outcome.1 := by
  unfold noted
  split
  · exact readiness_instanceConditionChanged _ _
  · rfl

theorem readiness_oldInstanceChanged (event : InstanceChanged) :
    (a.oldInstanceChanged event).readiness = a.readiness ∨
      (a.oldInstanceChanged event).readiness = a.readiness.instanceTerminated event.id := by
  unfold oldInstanceChanged
  dsimp only
  split_ifs
  · exact .inr rfl
  · exact .inr (readiness_launchInstances _)
  · exact .inl rfl

theorem readiness_newInstanceChanged (event : InstanceChanged) :
    (a.newInstanceChanged event).readiness = a.readiness ∨
      (a.newInstanceChanged event).readiness = a.readiness.instanceTerminated event.id := by
  unfold newInstanceChanged
  dsimp only
  split_ifs
  · exact .inr rfl
  · exact .inl rfl
  · exact .inl rfl

variable {a}

theorem tracks_receive (hbehavior : a.behavior = .initialized) {message : Message runSpec}
    {shown : ReadinessBehavior.Message} (hshown : message.readiness = some shown) :
    a.readiness.Tracks runSpec shown (a.receive message).readiness := by
  unfold receive
  rw [hbehavior]
  rw [readinessBehavior_eq, hshown, Option.bind_some]
  cases hready : a.readiness.readinessBehavior runSpec shown with
  | some outcome =>
    rw [Option.map_some, Option.getD_some, readiness_noted]
    exact .of_eq_some hready
  | none =>
    rw [Option.map_none, Option.getD_none]
    cases message with
    | instanceChanged event =>
      cases hshown
      unfold replaceBehavior
      dsimp only
      split_ifs
      · exact .kept
      · exact .kept
      · obtain heq | heq := readiness_oldInstanceChanged a event
        · rw [heq]
          exact .kept
        · rw [heq]
          exact .terminated
      · obtain heq | heq := readiness_newInstanceChanged a event
        · rw [heq]
          exact .kept
        · rw [heq]
          exact .terminated
    | instanceHealthChanged event => exact .kept
    | readinessCheckStreamDone => exact .kept
    | readinessCheckResult taskId ready => exact .kept
    | _ => cases hshown

/-- The other messages do not matter to the behaviour. -/
theorem readiness_receive_of_eq_none (hbehavior : a.behavior = .initialized)
    {message : Message runSpec} (hshown : message.readiness = none) :
    (a.receive message).readiness = a.readiness := by
  unfold receive
  rw [hbehavior]
  rw [readinessBehavior_eq, hshown]
  cases message with
  | checkFinished => exact readiness_checkFinished a
  | loaded state => rfl
  | done => rfl
  | failure => rfl
  | _ => cases hshown

end TaskReplaceActor

end Marathon.Deployment
