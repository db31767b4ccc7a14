import Marathon.Deployment.ReplaceCapacity
import Marathon.Deployment.TaskStartActor

/-!
# Sound readiness

An instance that was reported terminal is taken for healthy or ready again by what arrives late:
nothing that was started for it is cancelled. As long as nothing does, and the actor takes every
end of an instance for one, the sets hold live instances only. That they have the size that is
wanted says how many instances are both healthy and ready only as long as one of the sets
contains the other.
-/

namespace Marathon.Deployment

open Lib
open TaskReplaceActor (InstanceChanged)

variable {event : InstanceChanged} {message : ReadinessBehavior.Message}

namespace ReadinessBehavior

/-- An event is published with the instance that has changed. -/
def Message.published : Message → Bool
  | .instanceChanged event =>
    event.id = event.changed.instanceId && event.runSpecVersion = event.changed.runSpecVersion &&
      event.runSpecId = event.changed.runSpecId &&
        event.condition = event.changed.state.condition
  | _ => true

/-- The instances that were reported terminal, and not to be running since. -/
def reported (gone : Finset InstanceId) (message : Message) : Finset InstanceId :=
  gone \ showsRunning message ∪ showsTerminal message

/-- The sets contain nothing that is gone, and the target count says how many live instances are
both healthy and ready. -/
structure Sound (gone : Finset InstanceId) (s : ReadinessBehavior) : Prop where
  healthy : Disjoint s.healthy gone
  ready : Disjoint s.ready gone
  reached : ∀ count, s.targetCountReached count → ∃ live : Finset InstanceId,
    (live.card : ℤ) = count ∧ live ⊆ s.healthy ∧ live ⊆ s.ready ∧ Disjoint live gone

section

variable {runSpec : RunSpec} {s s' : ReadinessBehavior} {message : Message}
  {gone : Finset InstanceId}

theorem Tracks.healthy_subset (h : Tracks runSpec s message s') :
    s'.healthy ⊆ s.healthy ∪ showsHealthy runSpec message := by
  cases h with
  | kept => exact Finset.subset_union_left
  | noted => exact subset_rfl
  | terminated => exact (Finset.erase_subset _ _).trans Finset.subset_union_left

theorem Tracks.ready_subset (h : Tracks runSpec s message s') :
    s'.ready ⊆ s.ready ∪ showsReady runSpec message := by
  cases h with
  | kept => exact Finset.subset_union_left
  | noted => exact subset_rfl
  | terminated => exact (Finset.erase_subset _ _).trans Finset.subset_union_left

/-- Instances that are not in the sets do not come into them by an event of their end. -/
theorem Tracks.notMem_of_ne_running
    (h : Tracks runSpec s (.instanceChanged event) s') (hrunning : event.condition ≠ .running)
    (hnot : event.id ∉ s.healthy ∪ s.ready) : event.id ∉ s'.healthy ∪ s'.ready := by
  have hhealthy := h.healthy_subset
  have hready := h.ready_subset
  rw [showsHealthy_of_ne_running hrunning, Finset.union_empty] at hhealthy
  rw [showsReady_of_ne_running hrunning, Finset.union_empty] at hready
  exact fun hmem => hnot (Finset.union_subset_union hhealthy hready hmem)

theorem notMem_instanceTerminated (s : ReadinessBehavior) (id : InstanceId) :
    id ∉ (s.instanceTerminated id).healthy ∪ (s.instanceTerminated id).ready := by
  simp [instanceTerminated]

end

end ReadinessBehavior

open TaskReplaceActor (hasReadinessChecks)
open ReadinessBehavior (reported showsHealthy showsReady showsRunning showsTerminal Sound)

/-- An actor with the behaviour: its steps and its sets, the message that a step hands to the
behaviour, and the events that the actor takes for the end of an instance. While it is `loading`
it hands nothing over. -/
structure ReadinessActor (runSpec : RunSpec) (α ε : Type) where
  machine : Machine α ε
  readiness : α → ReadinessBehavior
  loading : α → Prop
  handled : α → ε → Option ReadinessBehavior.Message
  ends : InstanceChanged → Bool
  init {a : α} : machine.Init a → readiness a = .empty
  loading_of_step {a a' : α} {e : ε} : machine.step a e = some a' → loading a' →
    loading a ∧ handled a e = none
  tracks {a a' : α} {e : ε} {message : ReadinessBehavior.Message} :
    machine.step a e = some a' → handled a e = some message →
      (readiness a).Tracks runSpec message (readiness a')
  terminated {a a' : α} {e : ε} {event : InstanceChanged} :
    machine.step a e = some a' → handled a e = some (.instanceChanged event) →
      event.condition.isTerminal = true → ends event = true →
        readiness a' = (readiness a).instanceTerminated event.id
  unhandled {a a' : α} {e : ε} : machine.Reachable a → machine.step a e = some a' →
    handled a e = none → readiness a' = readiness a ∨ loading a ∧ (readiness a').Comparable

/-- An actor, and the instances that it was told are terminal, and not that they run since. -/
structure Watched (α : Type) where
  actor : α
  gone : Finset InstanceId

namespace ReadinessActor

variable {runSpec : RunSpec} {α ε : Type} (A : ReadinessActor runSpec α ε)

/-- The runs of the actor with events as they are published. -/
def watched : Machine (Watched α) ε where
  Init r := A.machine.Init r.actor ∧ r.gone = ∅
  step r e :=
    if (A.handled r.actor e).all ReadinessBehavior.Message.published then
      (A.machine.step r.actor e).map fun a =>
        ⟨a, (A.handled r.actor e).elim r.gone (reported r.gone)⟩
    else none

/-- What holds of the sets in runs whose steps are timely. -/
structure Invariant (r : Watched α) : Prop where
  reachable : A.machine.Reachable r.actor
  loading : A.loading r.actor → r.gone = ∅
  healthy : Disjoint (A.readiness r.actor).healthy r.gone
  ready : Disjoint (A.readiness r.actor).ready r.gone
  comparable : (A.readiness r.actor).Comparable

variable {A}

theorem disjoint_showsTerminal {a a' : α} {e : ε}
    (hstep : A.machine.step a e = some a') (hhandled : A.handled a e = some message)
    (htaken : ∀ event, message = .instanceChanged event → event.condition.isTerminal = true →
      event.id ∈ (A.readiness a).healthy ∪ (A.readiness a).ready → A.ends event = true) :
    Disjoint ((A.readiness a').healthy ∪ (A.readiness a').ready) (showsTerminal message) := by
  cases message with
  | instanceChanged event =>
    unfold showsTerminal
    dsimp only
    split_ifs with hterminal
    · rw [Finset.disjoint_singleton_right]
      by_cases hmem : event.id ∈ (A.readiness a).healthy ∪ (A.readiness a).ready
      · rw [A.terminated hstep hhandled hterminal (htaken event rfl hterminal hmem)]
        exact ReadinessBehavior.notMem_instanceTerminated _ _
      · exact (A.tracks hstep hhandled).notMem_of_ne_running
          (Condition.ne_running_of_isTerminal hterminal) hmem
    · exact Finset.disjoint_empty_right _
  | _ => exact Finset.disjoint_empty_right _

end ReadinessActor

/-! ## The actor that starts instances -/

namespace TaskStartActor

/-- What an event hands to the behaviour. -/
def handled : Event → Option ReadinessBehavior.Message
  | .received (.readiness message) => some message
  | _ => none

def machine (runSpec : RunSpec) (scaleTo : ℤ) : Machine TaskStartActor Event where
  Init a := a = preStart
  step := step runSpec scaleTo

variable {runSpec : RunSpec} {scaleTo : ℤ} {a a' : TaskStartActor} {e : Event}

theorem step_of_handled
    (hstep : a.step runSpec scaleTo e = some a') (hhandled : handled e = some message) :
    a' = a.receive runSpec scaleTo (.readiness message) := by
  cases e with
  | received received =>
    cases received with
    | readiness shown =>
      cases hhandled
      unfold step at hstep
      dsimp only at hstep
      split_ifs at hstep
      exact (Option.some.inj hstep).symm
    | _ => cases hhandled
  | _ => cases hhandled

theorem readiness_of_unhandled (hstep : a.step runSpec scaleTo e = some a')
    (hhandled : handled e = none) : a'.readiness = a.readiness := by
  unfold step at hstep
  cases e with
  | counted instances =>
    dsimp only at hstep
    split_ifs at hstep
    cases hstep
    exact readiness_initializeStart a instances
  | received message =>
    dsimp only at hstep
    split_ifs at hstep
    cases hstep
    cases message with
    | readiness shown => cases hhandled
    | sync instances =>
      unfold receive commonBehavior
      dsimp only
      split_ifs <;> rfl
    | _ => rfl
  | looked =>
    dsimp only at hstep
    split at hstep
    · split_ifs at hstep
      cases hstep
      rfl
    · cases hstep

def readinessActor (runSpec : RunSpec) (scaleTo : ℤ) :
    ReadinessActor runSpec TaskStartActor Event where
  machine := machine runSpec scaleTo
  readiness := readiness
  loading _ := False
  handled _ := handled
  ends := isTerminalNew runSpec
  init h := congrArg readiness h
  loading_of_step _ h := h.elim
  tracks hstep hhandled := by
    rw [step_of_handled hstep hhandled]
    exact tracks_receive _ _
  terminated hstep hhandled _ hends := by
    rw [step_of_handled hstep hhandled]
    exact readiness_receive_of_terminal hends
  unhandled _ hstep hhandled := .inl (readiness_of_unhandled hstep hhandled)

end TaskStartActor

/-! ## The actor that replaces instances -/

namespace ReadinessBehavior

variable {runSpec : RunSpec} {s : ReadinessBehavior}

/-- Without readiness checks all instances are ready, and with them none is yet. -/
theorem comparable_reconcile (instances : List Instance)
    (h : if hasReadinessChecks runSpec then s.ready = ∅ else s.healthy ⊆ s.ready) :
    (instances.foldl (reconcileHealthAndReadinessCheck runSpec) s).Comparable := by
  induction instances generalizing s with
  | nil =>
    split_ifs at h
    · exact .inr (h ▸ Finset.empty_subset _)
    · exact .inl h
  | cons i instances ih =>
    refine ih ?_
    unfold reconcileHealthAndReadinessCheck
    dsimp only
    split_ifs at h ⊢
    · exact h
    · exact h.trans (Finset.subset_insert _ _)
    · exact Finset.insert_subset_insert _ h

end ReadinessBehavior

namespace TaskReplaceActor

def machine (runSpec : RunSpec) : Machine (TaskReplaceActor runSpec) (Event runSpec) where
  Init a := a = preStart runSpec
  step := step

variable {runSpec : RunSpec} {a a' : TaskReplaceActor runSpec} {e : Event runSpec}

/-- What an event hands to the behaviour, which is in use once the actor is initialized. -/
def handled (a : TaskReplaceActor runSpec) (e : Event runSpec) : Option ReadinessBehavior.Message :=
  if a.behavior = .initialized then (a.next e).bind fun handled => handled.1.readiness else none

/-- The events that are taken for the end of an instance: all but those about an instance of the
new version that is not to run any more. -/
def ends (runSpec : RunSpec) (event : InstanceChanged) : Bool :=
  event.runSpecId = runSpec.id && event.changed.runSpecId = runSpec.id &&
    (isOldInstance runSpec event.changed || event.changed.state.goal = .running)

theorem next_eq_some {message : Message runSpec} (h : a.next e = some (message, a')) :
    ∃ unstashed, a' = { a with unstashed := unstashed } ∧
      (a.unstashed = [] → unstashed = [] ∧ a.expects message = true) := by
  cases e with
  | received message' =>
    unfold next at h
    dsimp only at h
    split_ifs at h with hexpects
    cases h
    exact ⟨a.unstashed, rfl, fun hempty => ⟨hempty, (Bool.and_eq_true_iff.mp hexpects).2⟩⟩
  | unstashed =>
    unfold next at h
    dsimp only at h
    split at h
    · cases h
    · rename_i rest hunstashed
      cases h
      exact ⟨rest, rfl, fun hempty => by simp [hunstashed] at hempty⟩

theorem step_eq_some (h : a.step e = some a') :
    ∃ message unstashed, a.next e = some (message, { a with unstashed := unstashed }) ∧
      a' = { a with unstashed := unstashed }.receive message ∧
        (a.behavior = .initializing ∨ a.behavior = .initialized) ∧
          (a.unstashed = [] → unstashed = [] ∧ a.expects message = true) := by
  unfold step at h
  split_ifs at h with hbehavior
  obtain ⟨⟨message, next⟩, hnext, rfl⟩ := Option.map_eq_some_iff.mp h
  obtain ⟨unstashed, rfl, hexpects⟩ := next_eq_some hnext
  exact ⟨message, unstashed, hnext, rfl, hbehavior, hexpects⟩

/-- Before anything is loaded nothing is known of the instances. -/
structure Loading (a : TaskReplaceActor runSpec) : Prop where
  unstashed : a.behavior = .initializing → a.unstashed = []
  readiness : a.behavior = .initializing → a.state = none → a.readiness = .empty

theorem loading_of_reachable (h : (machine runSpec).Reachable a) : Loading a := by
  refine h.invariant ?_ ?_
  · intro a ha
    obtain rfl : a = preStart runSpec := ha
    exact ⟨fun _ => rfl, fun _ _ => rfl⟩
  · intro a e a' ih _ hstep
    obtain ⟨message, unstashed, -, rfl, -, hexpects⟩ := step_eq_some hstep
    have hhandled := handled_receive { a with unstashed := unstashed } message
    generalize reportedGone { a with unstashed := unstashed } message = gone at hhandled
    generalize { a with unstashed := unstashed }.receive message = a' at hhandled
    cases hhandled with
    | kept stash => exact ⟨fun h => (hexpects (ih.unstashed h)).1, ih.readiness⟩
    | launches hbehavior h =>
      have hnot : a'.behavior ≠ .initializing := by
        cases h.behavior with
        | inl heq => rw [heq, hbehavior]; exact nofun
        | inr heq => rw [heq]; exact nofun
      exact ⟨fun h => absurd h hnot, fun h => absurd h hnot⟩
    | loaded hbehavior h =>
      refine ⟨fun _ => ?_, fun _ hnone => ?_⟩
      · exact h.unstashed.trans (hexpects (ih.unstashed hbehavior)).1
      · rw [h.state] at hnone
        cases hnone
    | done hbehavior => exact ⟨nofun, nofun⟩
    | thrown => exact ⟨nofun, nofun⟩
    | gone id hbehavior =>
      have hnot : a.behavior ≠ .initializing := by
        rw [hbehavior]
        exact nofun
      exact ⟨fun h => absurd h hnot, fun h => absurd h hnot⟩

theorem readiness_killOldInstances (a : TaskReplaceActor runSpec) (n : ℕ) :
    (a.killOldInstances n).readiness = a.readiness := by
  induction n generalizing a with
  | zero => rfl
  | succ n ih => exact (ih _).trans (readiness_killNextOldInstance a)

theorem readiness_reconcileAlreadyStartedInstances (a : TaskReplaceActor runSpec)
    (state : State runSpec) :
    (a.reconcileAlreadyStartedInstances state).readiness =
      state.instancesAlreadyStarted.foldl
        (ReadinessBehavior.reconcileHealthAndReadinessCheck runSpec) a.readiness := by
  unfold reconcileAlreadyStartedInstances
  induction state.instancesAlreadyStarted generalizing a with
  | nil => rfl
  | cons i instances ih => exact ih (a.reconcileHealthAndReadinessCheck i)

theorem readiness_loaded (a : TaskReplaceActor runSpec) (state : State runSpec) :
    (a.initializing (.loaded state)).readiness =
      state.instancesAlreadyStarted.foldl
        (ReadinessBehavior.reconcileHealthAndReadinessCheck runSpec) a.readiness := by
  unfold initializing
  rw [readiness_checkFinished, readiness_launchInstances, readiness_killOldInstances,
    readiness_reconcileAlreadyStartedInstances]
  rfl

theorem loading_of_step (hstep : a.step e = some a') (h : a'.behavior = .initializing) :
    a.behavior = .initializing := by
  obtain ⟨message, unstashed, -, rfl, hbehavior, -⟩ := step_eq_some hstep
  refine hbehavior.resolve_right fun hinitialized => ?_
  have hhandled := handled_receive { a with unstashed := unstashed } message
  generalize reportedGone { a with unstashed := unstashed } message = gone at hhandled
  generalize { a with unstashed := unstashed }.receive message = a' at hhandled h
  cases hhandled with
  | kept stash => exact nomatch hinitialized.symm.trans h
  | launches hbehavior hlaunches =>
    cases hlaunches.behavior with
    | inl heq => exact nomatch hinitialized.symm.trans (heq.symm.trans h)
    | inr heq => exact nomatch heq.symm.trans h
  | loaded hbehavior _ => exact nomatch hinitialized.symm.trans hbehavior
  | done _ => cases h
  | thrown => cases h
  | gone _ _ => exact nomatch hinitialized.symm.trans h

theorem handled_eq_some (h : a.handled e = some message) :
    a.behavior = .initialized ∧ ∃ received next, a.next e = some (received, next) ∧
      received.readiness = some message := by
  unfold handled at h
  split_ifs at h with hbehavior
  obtain ⟨⟨received, next⟩, hnext, hreadiness⟩ := Option.bind_eq_some_iff.mp h
  exact ⟨hbehavior, received, next, hnext, hreadiness⟩

theorem receive_of_handled (hstep : a.step e = some a') (hhandled : a.handled e = some message) :
    ∃ (received : Message runSpec) (unstashed : List (Message runSpec)),
      received.readiness = some message ∧ a.behavior = .initialized ∧
        a' = { a with unstashed := unstashed }.receive received := by
  obtain ⟨hbehavior, received, next, hnext, hreadiness⟩ := handled_eq_some hhandled
  obtain ⟨received', unstashed, hnext', ha', -⟩ := step_eq_some hstep
  cases hnext.symm.trans hnext'
  exact ⟨received, unstashed, hreadiness, hbehavior, ha'⟩

theorem considerTerminal_of_isTerminal {condition : Condition} (h : condition.isTerminal = true) :
    considerTerminal condition = true := by
  cases condition <;> first | rfl | cases h

theorem ne_running_of_considerTerminal {condition : Condition} (h : considerTerminal condition = true) :
    condition ≠ .running := by
  rintro rfl
  cases h

theorem readiness_of_considerTerminal
    (hbehavior : a.behavior = .initialized) (hterminal : considerTerminal event.condition = true)
    (hends : ends runSpec event = true) :
    (a.receive (.instanceChanged event)).readiness = a.readiness.instanceTerminated event.id := by
  have hrunning := ne_running_of_considerTerminal hterminal
  simp only [ends, Bool.and_eq_true, Bool.or_eq_true, decide_eq_true_eq] at hends
  obtain ⟨⟨hid, hchanged⟩, hold⟩ := hends
  unfold receive
  rw [hbehavior]
  rw [readinessBehavior_eq, Message.readiness, Option.bind_some,
    ReadinessBehavior.readinessBehavior_of_ne_running hrunning, Option.map_none, Option.getD_none]
  unfold replaceBehavior
  dsimp only
  rw [if_neg (not_not.mpr hid), if_neg (not_not.mpr hchanged)]
  split_ifs with hisOld
  · unfold oldInstanceChanged
    rw [hterminal]
    cases hgoal : event.changed.state.goal with
    | running => rfl
    | stopped => exact readiness_launchInstances _
    | decommissioned => exact readiness_launchInstances _
  · have hgoal := hold.resolve_left hisOld
    simp only [newInstanceChanged, hterminal, hgoal, Bool.true_and, decide_true, if_true]
    rfl

/-- What is not handed over does not change the sets, unless the instances are loaded. -/
theorem readiness_of_unhandled (hreachable : (machine runSpec).Reachable a)
    (hstep : a.step e = some a') (hhandled : a.handled e = none) :
    a'.readiness = a.readiness ∨ a.behavior = .initializing ∧ a'.readiness.Comparable := by
  have hloading := loading_of_reachable hreachable
  obtain ⟨message, unstashed, hnext, rfl, hbehavior, hexpects⟩ := step_eq_some hstep
  cases hbehavior with
  | inl hinitializing =>
    have hreceive : { a with unstashed := unstashed }.receive message =
        { a with unstashed := unstashed }.initializing message := by
      unfold receive
      rw [hinitializing]
    rw [hreceive]
    cases message with
    | loaded state =>
      right
      refine ⟨hinitializing, ?_⟩
      have hexpected := (hexpects (hloading.unstashed hinitializing)).2
      simp only [expects, hinitializing, decide_true, Bool.true_and, Option.isNone_iff_eq_none]
        at hexpected
      have hempty := hloading.readiness hinitializing hexpected
      rw [readiness_loaded]
      apply ReadinessBehavior.comparable_reconcile
      change if hasReadinessChecks runSpec then a.readiness.ready = ∅
        else a.readiness.healthy ⊆ a.readiness.ready
      rw [hempty]
      split_ifs
      · rfl
      · exact subset_rfl
    | _ => exact .inl rfl
  | inr hinitialized =>
    left
    have hnone : message.readiness = none := by
      rw [handled, if_pos hinitialized, hnext, Option.bind_some] at hhandled
      exact hhandled
    exact readiness_receive_of_eq_none (a := { a with unstashed := unstashed }) hinitialized hnone

theorem handled_of_initializing (hbehavior : a.behavior = .initializing) : a.handled e = none := by
  unfold handled
  rw [hbehavior]
  exact if_neg nofun

theorem tracks_of_handled (hstep : a.step e = some a') (hhandled : a.handled e = some message) :
    a.readiness.Tracks runSpec message a'.readiness := by
  obtain ⟨received, unstashed, hreadiness, hbehavior, rfl⟩ := receive_of_handled hstep hhandled
  exact tracks_receive (a := { a with unstashed := unstashed }) hbehavior hreadiness

theorem considered_of_handled (hstep : a.step e = some a')
    (hhandled : a.handled e = some (.instanceChanged event))
    (hterminal : considerTerminal event.condition = true) (hends : ends runSpec event = true) :
    a'.readiness = a.readiness.instanceTerminated event.id := by
  obtain ⟨received, unstashed, hreadiness, hbehavior, rfl⟩ := receive_of_handled hstep hhandled
  cases received with
  | instanceChanged event =>
    cases hreadiness
    exact readiness_of_considerTerminal (a := { a with unstashed := unstashed }) hbehavior
      hterminal hends
  | _ => cases hreadiness

def readinessActor (runSpec : RunSpec) :
    ReadinessActor runSpec (TaskReplaceActor runSpec) (Event runSpec) where
  machine := machine runSpec
  readiness := readiness
  loading a := a.behavior = .initializing
  handled := handled
  ends := ends runSpec
  init h := congrArg readiness h
  loading_of_step hstep h :=
    ⟨loading_of_step hstep h, handled_of_initializing (loading_of_step hstep h)⟩
  tracks := tracks_of_handled
  terminated hstep hhandled hterminal :=
    considered_of_handled hstep hhandled (considerTerminal_of_isTerminal hterminal)
  unhandled := readiness_of_unhandled

end TaskReplaceActor

end Marathon.Deployment

namespace Marathon.Deployment

open Lib

namespace TaskStartActor.Web

/-! ## A result that comes late -/

def readinessCheck : ReadinessCheck where
  name := "ready"
  protocol := .http
  path := "/"
  portName := "http"
  interval := 30000000000
  timeout := 10000000000
  httpStatusCodesForReady := {200}
  preserveLastResponse := false

def app : AppDefinition := { TaskReplaceActor.Web.app ⟨1⟩ with readinessChecks := [readinessCheck] }

def instanceOf (uuid : ℕ) (condition : Condition) : Instance :=
  { TaskReplaceActor.Web.instanceOf ⟨1⟩ uuid condition .running with runSpec := .app app }

def instanceChanged (uuid : ℕ) (condition : Condition) : Event :=
  .received (.readiness (.instanceChanged (instanceChangedOf (instanceOf uuid condition))))

def readinessCheckResult (uuid : ℕ) : Event :=
  .received (.readiness (.readinessCheckResult
    (.ephemeralTaskId (instanceOf uuid .running).instanceId none) true))

end TaskStartActor.Web

end Marathon.Deployment
