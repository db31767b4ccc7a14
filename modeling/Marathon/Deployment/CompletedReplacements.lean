import Marathon.Deployment.SoundReadiness

/-!
# Completed replacements

The step is over when as many new instances are healthy and ready as are wanted, and no old one
is left. But what a former life has started counts as healthy when there are no health checks,
whatever has become of it, and so does an instance that runs but is not to run any more.
-/

namespace Marathon.Deployment.TaskReplaceActor

open Lib
open ReadinessBehavior (showsHealthy showsReady)

variable {runSpec : RunSpec}

/-! ## What is seen of the instances -/

/-- What the instances that are loaded, and the events that are handled after, say:
`healthy` are the new ones seen healthy with the goal to be running, or running where there are
no health checks, and `ready` those seen ready, and not gone since; `stopping` are the instances
that are not to run, as was last seen; `old` are the old ones that were to run when they were
loaded, and are not gone since. -/
structure Sightings where
  healthy : Finset InstanceId
  ready : Finset InstanceId
  stopping : Finset InstanceId
  old : Finset InstanceId

namespace Sightings

def empty : Sightings := ⟨∅, ∅, ∅, ∅⟩

/-- A loaded instance that is up, and is to be. -/
def isUp (runSpec : RunSpec) (i : Instance) : Bool :=
  i.state.goal = .running &&
    if hasHealthChecks runSpec then i.state.healthy = some true else i.state.condition = .running

def ids (instances : List Instance) : Finset InstanceId :=
  (instances.map Instance.instanceId).toFinset

def ofState (state : State runSpec) : Sightings where
  healthy := ids (state.instancesAlreadyStarted.filter (isUp runSpec))
  ready := ∅
  stopping := ids (state.specInstances.filter fun i => i.state.goal.isTerminal)
  old := ids (oldActiveInstances runSpec state.specInstances)

def stoppingAfter (stopping : Finset InstanceId) : ReadinessBehavior.Message → Finset InstanceId
  | .instanceChanged event =>
    if event.changed.state.goal.isTerminal then insert event.id stopping
    else stopping.erase event.id
  | _ => stopping

/-- The instance that is gone, to the actor. -/
def showsGone : ReadinessBehavior.Message → Finset InstanceId
  | .instanceChanged event => if considerTerminal event.condition then {event.id} else ∅
  | _ => ∅

/-- An old instance that was never launched is gone as well. -/
def showsOldGone : ReadinessBehavior.Message → Finset InstanceId
  | .instanceChanged event =>
    if considerTerminal event.condition ||
        (event.condition = .scheduled && event.changed.state.goal.isTerminal) then {event.id}
    else ∅
  | _ => ∅

def observe (runSpec : RunSpec) (s : Sightings) (message : ReadinessBehavior.Message) :
    Sightings where
  healthy := (s.healthy ∪ showsHealthy runSpec message \ stoppingAfter s.stopping message) \
    showsGone message
  ready := (s.ready ∪ showsReady runSpec message) \ showsGone message
  stopping := stoppingAfter s.stopping message
  old := s.old \ showsOldGone message

end Sightings

/-- What is loaded while the actor is initializing. -/
def loaded (a : TaskReplaceActor runSpec) (e : Event runSpec) : Option (State runSpec) :=
  if a.behavior = .initializing then
    (a.next e).bind fun
      | (.loaded state, _) => some state
      | _ => none
  else none

structure Restart (runSpec : RunSpec) where
  actor : TaskReplaceActor runSpec
  seen : Sightings

def Restart.seenAfter (r : Restart runSpec) (e : Event runSpec) : Sightings :=
  match r.actor.loaded e with
  | some state => .ofState state
  | none => (r.actor.handled e).elim r.seen (r.seen.observe runSpec)

/-- A life of the actor with events as they are published. -/
def restart (runSpec : RunSpec) : Machine (Restart runSpec) (Event runSpec) where
  Init r := r.actor = preStart runSpec ∧ r.seen = .empty
  step r e :=
    if (r.actor.handled e).all ReadinessBehavior.Message.published then
      (r.actor.step e).map fun a => ⟨a, r.seenAfter e⟩
    else none

/-- As many new instances are up as are wanted, and all the old ones are gone. -/
def Replaced (r : Restart runSpec) : Prop :=
  (∃ up : Finset InstanceId, runSpec.instances ≤ up.card ∧ up ⊆ r.seen.healthy ∧
    (hasReadinessChecks runSpec = true → up ⊆ r.seen.ready)) ∧ r.seen.old = ∅

/-- What is loaded and taken for healthy is up; what is shown to be healthy is to run; a new
instance in the sets that is gone is to run again; and no instance is healthy but not ready
while another one is ready but not healthy. -/
structure Orderly (r : Restart runSpec) (e : Event runSpec) : Prop where
  up : ∀ state, r.actor.loaded e = some state → ∀ i ∈ state.instancesAlreadyStarted,
    (hasHealthChecks runSpec = true → i.state.healthy = some true) → Sightings.isUp runSpec i = true
  goal : ∀ message, r.actor.handled e = some message →
    Disjoint (showsHealthy runSpec message) (Sightings.stoppingAfter r.seen.stopping message)
  taken : ∀ event, r.actor.handled e = some (.instanceChanged event) →
    considerTerminal event.condition = true →
      event.id ∈ r.actor.readiness.healthy ∪ r.actor.readiness.ready → ends runSpec event = true
  comparable : ∀ message, r.actor.handled e = some message →
    (r.actor.readiness.noted runSpec message).Comparable

/-! ## How the actor ends -/

variable {id : InstanceId} {message : Message runSpec} {instances : List Instance}

section

variable (a : TaskReplaceActor runSpec)

/-- What is looked at before the actor ends. -/
def Finished : Prop :=
  a.readiness.targetCountReached runSpec.instances ∧ a.oldActiveInstanceIds = ∅

/-- The old instances and the behavior are as before. -/
structure KeepsOld (a' : TaskReplaceActor runSpec) : Prop where
  behavior : a'.behavior = a.behavior
  old : a'.oldActiveInstanceIds = a.oldActiveInstanceIds

theorem keepsOld_killNextOldInstance : a.KeepsOld a.killNextOldInstance := by
  unfold killNextOldInstance
  split <;> exact ⟨rfl, rfl⟩

theorem keepsOld_killOldInstances (n : ℕ) : a.KeepsOld (a.killOldInstances n) := by
  induction n generalizing a with
  | zero => exact ⟨rfl, rfl⟩
  | succ n ih =>
    have hnext := keepsOld_killNextOldInstance a
    have hrest := ih a.killNextOldInstance
    exact ⟨hrest.behavior.trans hnext.behavior, hrest.old.trans hnext.old⟩

theorem keepsOld_launchInstances : a.KeepsOld a.launchInstances := by
  unfold launchInstances
  split <;> exact ⟨rfl, rfl⟩

theorem keepsOld_reconcile (state : State runSpec) :
    a.KeepsOld (a.reconcileAlreadyStartedInstances state) := by
  obtain ⟨healthy, ready, heq⟩ := reconcileAlreadyStartedInstances_eq a state
  rw [heq]
  exact ⟨rfl, rfl⟩

theorem old_checkFinished : a.checkFinished.oldActiveInstanceIds = a.oldActiveInstanceIds := by
  unfold checkFinished
  split <;> rfl

theorem old_instanceConditionChanged (id : InstanceId) :
    (a.instanceConditionChanged id).oldActiveInstanceIds = a.oldActiveInstanceIds := by
  unfold instanceConditionChanged
  split
  · exact (old_checkFinished _).trans (keepsOld_killNextOldInstance a).old
  · exact old_checkFinished a

variable {a}

theorem finished_checkFinished (hbefore : a.behavior ≠ .stopped)
    (h : a.checkFinished.behavior = .stopped) : Finished a.checkFinished := by
  unfold checkFinished at h ⊢
  split_ifs at h ⊢ with hfinished
  · exact ⟨⟨hfinished.1, hfinished.2.1⟩, hfinished.2.2⟩
  · exact absurd h hbefore

theorem finished_instanceConditionChanged (hbefore : a.behavior ≠ .stopped)
    (h : (a.instanceConditionChanged id).behavior = .stopped) :
    Finished (a.instanceConditionChanged id) := by
  unfold instanceConditionChanged at h ⊢
  split_ifs at h ⊢
  · exact finished_checkFinished ((keepsOld_killNextOldInstance a).behavior ▸ hbefore) h
  · exact finished_checkFinished hbefore h

theorem finished_noted {outcome : ReadinessBehavior × Option InstanceId}
    (hbefore : a.behavior ≠ .stopped) (h : (a.noted outcome).behavior = .stopped) :
    Finished (a.noted outcome) := by
  unfold noted at h ⊢
  dsimp only at h ⊢
  split at h
  · exact finished_instanceConditionChanged hbefore h
  · exact absurd h hbefore

theorem behavior_newInstanceChanged (event : InstanceChanged) :
    (a.newInstanceChanged event).behavior = a.behavior := by
  unfold newInstanceChanged
  dsimp only
  split_ifs <;> rfl

theorem behavior_oldInstanceChanged (event : InstanceChanged) :
    (a.oldInstanceChanged event).behavior = a.behavior := by
  unfold oldInstanceChanged
  dsimp only
  split_ifs
  · rfl
  · exact (keepsOld_launchInstances _).behavior
  · rfl

theorem finished_replaceBehavior (hbefore : a.behavior ≠ .stopped)
    (h : (a.replaceBehavior message).behavior = .stopped) :
    Finished (a.replaceBehavior message) := by
  cases message with
  | instanceChanged event =>
    unfold replaceBehavior at h
    dsimp only at h
    split_ifs at h
    · exact absurd h hbefore
    · exact absurd ((behavior_oldInstanceChanged event).symm.trans h) hbefore
    · exact absurd ((behavior_newInstanceChanged event).symm.trans h) hbefore
  | checkFinished => exact finished_checkFinished hbefore h
  | failure => cases h
  | _ => exact absurd h hbefore

theorem behavior_loaded (a : TaskReplaceActor runSpec) (state : State runSpec) :
    ∃ started : TaskReplaceActor runSpec, started.behavior = a.behavior ∧
      started.oldActiveInstanceIds =
        Sightings.ids (oldActiveInstances runSpec state.specInstances) ∧
          a.initializing (.loaded state) = started.checkFinished := by
  have hreconcile := keepsOld_reconcile (a.setState state) state
  have hkill := keepsOld_killOldInstances
    ((a.setState state).reconcileAlreadyStartedInstances state)
      state.ignitionStrategy.nrToKillImmediately.toNat
  have hlaunch := keepsOld_launchInstances
    (((a.setState state).reconcileAlreadyStartedInstances state).killOldInstances
      state.ignitionStrategy.nrToKillImmediately.toNat)
  refine ⟨_, ?_, ?_, rfl⟩
  · exact hlaunch.behavior.trans (hkill.behavior.trans hreconcile.behavior)
  · exact hlaunch.old.trans (hkill.old.trans hreconcile.old)

theorem finished_receive (hbefore : a.behavior ≠ .stopped)
    (h : (a.receive message).behavior = .stopped) : Finished (a.receive message) := by
  unfold receive at h ⊢
  split at h
  · rename_i hinitializing
    cases message with
    | loaded state =>
      obtain ⟨started, hbehavior, -, heq⟩ := behavior_loaded a state
      rw [heq] at h ⊢
      exact finished_checkFinished (hbehavior ▸ hbefore) h
    | done => cases h
    | failure => cases h
    | _ => exact absurd h hbefore
  · rw [readinessBehavior_eq] at h ⊢
    cases hready : message.readiness.bind (a.readiness.readinessBehavior runSpec) with
    | some outcome =>
      rw [hready, Option.map_some, Option.getD_some] at h
      rw [Option.map_some, Option.getD_some]
      exact finished_noted hbefore h
    | none =>
      rw [hready, Option.map_none, Option.getD_none] at h
      rw [Option.map_none, Option.getD_none]
      exact finished_replaceBehavior hbefore h
  · exact absurd h hbefore
  · exact absurd h hbefore

/-! ## The old instances -/

theorem old_noted (outcome : ReadinessBehavior × Option InstanceId) :
    (a.noted outcome).oldActiveInstanceIds = a.oldActiveInstanceIds := by
  unfold noted
  split
  · exact old_instanceConditionChanged _ _
  · rfl

theorem old_newInstanceChanged (event : InstanceChanged) :
    (a.newInstanceChanged event).oldActiveInstanceIds = a.oldActiveInstanceIds := by
  unfold newInstanceChanged
  dsimp only
  split_ifs <;> rfl

theorem sdiff_subset_oldInstanceChanged (event : InstanceChanged) :
    a.oldActiveInstanceIds \ Sightings.showsOldGone (.instanceChanged event) ⊆
      (a.oldInstanceChanged event).oldActiveInstanceIds := by
  have herase : (considerTerminal event.condition ||
      (event.condition = .scheduled && event.changed.state.goal.isTerminal)) = true →
        a.oldActiveInstanceIds \ Sightings.showsOldGone (.instanceChanged event) ⊆
          a.oldActiveInstanceIds.erase event.id := by
    intro hgone
    rw [Sightings.showsOldGone, if_pos hgone, Finset.sdiff_singleton_eq_erase]
  unfold oldInstanceChanged
  dsimp only
  split_ifs with hrunning hterminal
  · rw [Bool.and_eq_true] at hrunning
    exact herase (Bool.or_eq_true_iff.mpr (.inl hrunning.1))
  · rw [(keepsOld_launchInstances _).old]
    rw [Bool.and_eq_true, Bool.or_eq_true] at hterminal
    apply herase
    rw [Bool.or_eq_true, Bool.and_eq_true]
    exact hterminal.1.imp_right fun hscheduled => ⟨hscheduled, hterminal.2⟩
  · exact Finset.sdiff_subset

theorem sdiff_subset_receive {shown : ReadinessBehavior.Message}
    (hbehavior : a.behavior = .initialized) (hshown : message.readiness = some shown) :
    a.oldActiveInstanceIds \ Sightings.showsOldGone shown ⊆
      (a.receive message).oldActiveInstanceIds := by
  unfold receive
  rw [hbehavior]
  rw [readinessBehavior_eq, hshown, Option.bind_some]
  cases hready : a.readiness.readinessBehavior runSpec shown with
  | some outcome =>
    rw [Option.map_some, Option.getD_some, old_noted]
    exact Finset.sdiff_subset
  | none =>
    rw [Option.map_none, Option.getD_none]
    cases message with
    | instanceChanged event =>
      cases hshown
      unfold replaceBehavior
      dsimp only
      split_ifs
      · exact Finset.sdiff_subset
      · exact Finset.sdiff_subset
      · exact sdiff_subset_oldInstanceChanged event
      · rw [old_newInstanceChanged]
        exact Finset.sdiff_subset
    | loaded state => cases hshown
    | done => cases hshown
    | failure => cases hshown
    | checkFinished => cases hshown
    | _ => exact Finset.sdiff_subset

theorem old_receive_of_eq_none (hbehavior : a.behavior = .initialized)
    (hshown : message.readiness = none) :
    (a.receive message).oldActiveInstanceIds = a.oldActiveInstanceIds := by
  unfold receive
  rw [hbehavior]
  rw [readinessBehavior_eq, hshown]
  cases message with
  | checkFinished => exact old_checkFinished a
  | loaded state => rfl
  | done => rfl
  | failure => rfl
  | _ => cases hshown

/-! ## What is loaded -/

theorem mem_reconcile_healthy {s : ReadinessBehavior}
    (h : id ∈ (instances.foldl
      (ReadinessBehavior.reconcileHealthAndReadinessCheck runSpec) s).healthy) :
    id ∈ s.healthy ∨ ∃ i ∈ instances, i.instanceId = id ∧
      (hasHealthChecks runSpec = true → i.state.healthy = some true) := by
  induction instances generalizing s with
  | nil => exact .inl h
  | cons i instances ih =>
    obtain hmem | ⟨j, hj, hid, hhealthy⟩ := ih h
    · unfold ReadinessBehavior.reconcileHealthAndReadinessCheck at hmem
      dsimp only at hmem
      split_ifs at hmem with hunhealthy
      · exact .inl hmem
      · obtain rfl | hmem := Finset.mem_insert.mp hmem
        · refine .inr ⟨i, List.mem_cons_self, rfl, fun hchecks => ?_⟩
          rw [hchecks, Bool.true_and, Bool.not_eq_true', Bool.not_eq_false] at hunhealthy
          cases hstate : i.state.healthy with
          | none =>
            rw [hstate] at hunhealthy
            cases hunhealthy
          | some healthy =>
            rw [hstate] at hunhealthy
            exact congrArg some hunhealthy
        · exact .inl hmem
    · exact .inr ⟨j, List.mem_cons_of_mem i hj, hid, hhealthy⟩

theorem reconcile_ready {s : ReadinessBehavior} (instances : List Instance)
    (hchecks : hasReadinessChecks runSpec = true) :
    (instances.foldl
      (ReadinessBehavior.reconcileHealthAndReadinessCheck runSpec) s).ready = s.ready := by
  induction instances generalizing s with
  | nil => rfl
  | cons i instances ih =>
    refine ih.trans ?_
    rw [ReadinessBehavior.reconcileHealthAndReadinessCheck, if_pos hchecks]

theorem mem_ids : id ∈ Sightings.ids instances ↔ ∃ i ∈ instances, i.instanceId = id := by
  rw [Sightings.ids, List.mem_toFinset, List.mem_map]

variable {a' : TaskReplaceActor runSpec} {e : Event runSpec}

theorem step_of_loaded {state : State runSpec} (hreachable : (machine runSpec).Reachable a)
    (hstep : a.step e = some a') (hloaded : a.loaded e = some state) :
    ∃ unstashed, a' = { a with unstashed := unstashed }.initializing (.loaded state) ∧
      a.state = none ∧ a.readiness = .empty := by
  unfold loaded at hloaded
  split_ifs at hloaded with hinitializing
  obtain ⟨⟨message, next⟩, hnext, hmessage⟩ := Option.bind_eq_some_iff.mp hloaded
  obtain rfl : message = .loaded state := by
    cases message with
    | loaded state => rw [Option.some.inj hmessage]
    | _ => cases hmessage
  obtain ⟨received, unstashed, hnext', rfl, -, hexpects⟩ := step_eq_some hstep
  cases hnext.symm.trans hnext'
  have hloading := loading_of_reachable hreachable
  have hexpected := (hexpects (hloading.unstashed hinitializing)).2
  simp only [expects, hinitializing, decide_true, Bool.true_and, Option.isNone_iff_eq_none]
    at hexpected
  refine ⟨unstashed, ?_, hexpected, hloading.readiness hinitializing hexpected⟩
  unfold receive
  rw [hinitializing]

/-- What is neither loaded nor handed over changes nothing that is counted. -/
theorem keeps_of_eq_none (hstep : a.step e = some a') (hloaded : a.loaded e = none)
    (hhandled : a.handled e = none) :
    a'.readiness = a.readiness ∧ a'.oldActiveInstanceIds = a.oldActiveInstanceIds := by
  obtain ⟨message, unstashed, hnext, rfl, hbehavior, -⟩ := step_eq_some hstep
  cases hbehavior with
  | inl hinitializing =>
    have hreceive : { a with unstashed := unstashed }.receive message =
        { a with unstashed := unstashed }.initializing message := by
      unfold receive
      rw [hinitializing]
    rw [hreceive]
    cases message with
    | loaded state =>
      rw [loaded, if_pos hinitializing, hnext] at hloaded
      cases hloaded
    | _ => exact ⟨rfl, rfl⟩
  | inr hinitialized =>
    have hnone : message.readiness = none := by
      rw [handled, if_pos hinitialized, hnext, Option.bind_some] at hhandled
      exact hhandled
    exact ⟨readiness_receive_of_eq_none (a := { a with unstashed := unstashed }) hinitialized hnone,
      old_receive_of_eq_none (a := { a with unstashed := unstashed }) hinitialized hnone⟩

theorem loaded_of_handled {message : ReadinessBehavior.Message}
    (hhandled : a.handled e = some message) : a.loaded e = none := by
  obtain ⟨hbehavior, -⟩ := handled_eq_some hhandled
  unfold loaded
  rw [hbehavior]
  exact if_neg nofun

end

/-! ## Orderly lives -/

variable {r r' : Restart runSpec} {e : Event runSpec}

structure RestartInvariant (r : Restart runSpec) : Prop where
  reachable : (machine runSpec).Reachable r.actor
  healthy : r.actor.readiness.healthy ⊆ r.seen.healthy
  ready : hasReadinessChecks runSpec = true → r.actor.readiness.ready ⊆ r.seen.ready
  comparable : r.actor.readiness.Comparable
  old : r.seen.old ⊆ r.actor.oldActiveInstanceIds

theorem exists_restart_step (h : (restart runSpec).step r e = some r') :
    r.actor.step e = some r'.actor ∧ r'.seen = r.seenAfter e := by
  dsimp only [restart] at h
  split_ifs at h
  obtain ⟨a', hstep, rfl⟩ := Option.map_eq_some_iff.mp h
  exact ⟨hstep, rfl⟩

theorem orderly_of_initializing (hbehavior : r.actor.behavior = .initializing)
    (hup : ∀ state, r.actor.loaded e = some state → ∀ i ∈ state.instancesAlreadyStarted,
      (hasHealthChecks runSpec = true → i.state.healthy = some true) →
        Sightings.isUp runSpec i = true) : Orderly r e where
  up := hup
  goal _ heq := nomatch (handled_of_initializing hbehavior).symm.trans heq
  taken _ heq := nomatch (handled_of_initializing hbehavior).symm.trans heq
  comparable _ heq := nomatch (handled_of_initializing hbehavior).symm.trans heq

theorem restartInvariant_loaded {state : State runSpec} (h : RestartInvariant r)
    (horderly : Orderly r e) (hstep : (restart runSpec).step r e = some r')
    (hloaded : r.actor.loaded e = some state) : RestartInvariant r' := by
  obtain ⟨hactor, hseen⟩ := exists_restart_step hstep
  have hreachable : (machine runSpec).Reachable r'.actor := .step h.reachable trivial hactor
  rw [Restart.seenAfter, hloaded] at hseen
  dsimp only at hseen
  obtain ⟨unstashed, ha', -, hempty⟩ := step_of_loaded h.reachable hactor hloaded
  have hreadiness : r'.actor.readiness = state.instancesAlreadyStarted.foldl
      (ReadinessBehavior.reconcileHealthAndReadinessCheck runSpec) .empty := by
    rw [ha', readiness_loaded]
    exact congrArg (fun s => state.instancesAlreadyStarted.foldl
      (ReadinessBehavior.reconcileHealthAndReadinessCheck runSpec) s) hempty
  refine ⟨hreachable, ?_, ?_, ?_, ?_⟩
  · intro id hid
    rw [hreadiness] at hid
    obtain hmem | ⟨i, hi, rfl, hhealthy⟩ := mem_reconcile_healthy hid
    · exact absurd hmem (Finset.notMem_empty _)
    · rw [hseen]
      exact mem_ids.mpr ⟨i, List.mem_filter.mpr ⟨hi, horderly.up state hloaded i hi hhealthy⟩, rfl⟩
  · intro hchecks
    rw [hreadiness, reconcile_ready _ hchecks]
    exact Finset.empty_subset _
  · rw [hreadiness]
    apply ReadinessBehavior.comparable_reconcile
    split_ifs
    · rfl
    · exact subset_rfl
  · obtain ⟨started, -, hold, heq⟩ := behavior_loaded { r.actor with unstashed := unstashed } state
    rw [hseen, ha', heq, old_checkFinished, hold]
    exact subset_rfl

theorem disjoint_showsGone {a a' : TaskReplaceActor runSpec} {message : ReadinessBehavior.Message}
    (hstep : a.step e = some a') (hhandled : a.handled e = some message)
    (htaken : ∀ event, message = .instanceChanged event → considerTerminal event.condition = true →
      event.id ∈ a.readiness.healthy ∪ a.readiness.ready → ends runSpec event = true) :
    Disjoint (a'.readiness.healthy ∪ a'.readiness.ready) (Sightings.showsGone message) := by
  have htracks := tracks_of_handled hstep hhandled
  cases message with
  | instanceChanged event =>
    unfold Sightings.showsGone
    dsimp only
    split_ifs with hterminal
    · rw [Finset.disjoint_singleton_right]
      by_cases hmem : event.id ∈ a.readiness.healthy ∪ a.readiness.ready
      · rw [considered_of_handled hstep hhandled hterminal (htaken event rfl hterminal hmem)]
        exact ReadinessBehavior.notMem_instanceTerminated _ _
      · exact htracks.notMem_of_ne_running (ne_running_of_considerTerminal hterminal) hmem
    · exact Finset.disjoint_empty_right _
  | _ => exact Finset.disjoint_empty_right _

theorem restartInvariant_handled {message : ReadinessBehavior.Message} (h : RestartInvariant r)
    (horderly : Orderly r e) (hstep : (restart runSpec).step r e = some r')
    (hhandled : r.actor.handled e = some message) : RestartInvariant r' := by
  obtain ⟨hactor, hseen⟩ := exists_restart_step hstep
  have hreachable : (machine runSpec).Reachable r'.actor := .step h.reachable trivial hactor
  rw [Restart.seenAfter, loaded_of_handled hhandled, hhandled] at hseen
  have htracks := tracks_of_handled hactor hhandled
  have hgone := Finset.disjoint_union_left.mp <| disjoint_showsGone hactor hhandled
    fun event heq => horderly.taken event (heq ▸ hhandled)
  refine ⟨hreachable, ?_, ?_, ?_, ?_⟩
  · rw [hseen]
    refine Finset.subset_sdiff.mpr ⟨?_, hgone.1⟩
    have hshown := Finset.sdiff_eq_self_of_disjoint (horderly.goal message hhandled)
    exact htracks.healthy_subset.trans (hshown.symm ▸ Finset.union_subset_union_left h.healthy)
  · intro hchecks
    rw [hseen]
    refine Finset.subset_sdiff.mpr ⟨?_, hgone.2⟩
    exact htracks.ready_subset.trans (Finset.union_subset_union_left (h.ready hchecks))
  · exact h.comparable.tracks (horderly.comparable message hhandled) htracks
  · obtain ⟨received, unstashed, hreadiness, hbehavior, ha'⟩ := receive_of_handled hactor hhandled
    rw [hseen, ha']
    exact (Finset.sdiff_subset_sdiff h.old subset_rfl).trans <|
      sdiff_subset_receive (a := { r.actor with unstashed := unstashed }) hbehavior hreadiness

theorem restartInvariant_of_reachableIf (h : (restart runSpec).ReachableIf Orderly r) :
    RestartInvariant r := by
  refine h.invariant ?_ ?_
  · rintro r ⟨hactor, hseen⟩
    refine ⟨.init hactor, ?_, fun _ => ?_, ?_, ?_⟩
    · rw [hactor]
      exact Finset.empty_subset _
    · rw [hactor]
      exact Finset.empty_subset _
    · rw [hactor]
      exact .inl subset_rfl
    · rw [hseen]
      exact Finset.empty_subset _
  · intro r e r' ih horderly hstep
    cases hloaded : r.actor.loaded e with
    | some state => exact restartInvariant_loaded ih horderly hstep hloaded
    | none =>
      cases hhandled : r.actor.handled e with
      | some message => exact restartInvariant_handled ih horderly hstep hhandled
      | none =>
        obtain ⟨hactor, hseen⟩ := exists_restart_step hstep
        rw [Restart.seenAfter, hloaded, hhandled] at hseen
        obtain ⟨hreadiness, hold⟩ := keeps_of_eq_none hactor hloaded hhandled
        refine ⟨.step ih.reachable trivial hactor, ?_, fun hchecks => ?_, ?_, ?_⟩
        · rw [hreadiness, hseen]
          exact ih.healthy
        · rw [hreadiness, hseen]
          exact ih.ready hchecks
        · rw [hreadiness]
          exact ih.comparable
        · rw [hold, hseen]
          exact ih.old

/-- In an orderly life the step is over only when the new instances are up and the old ones are
gone. -/
theorem replaced_of_stopped (runSpec : RunSpec) (r r' : Restart runSpec) (e : Event runSpec)
    (h : (restart runSpec).ReachableIf Orderly r) (horderly : Orderly r e)
    (hstep : (restart runSpec).step r e = some r') (hafter : r'.actor.behavior = .stopped) :
    Replaced r' := by
  have hinvariant := restartInvariant_of_reachableIf (.step h horderly hstep)
  obtain ⟨received, unstashed, -, ha', hbehavior, -⟩ := step_eq_some (exists_restart_step hstep).1
  have hbefore : { r.actor with unstashed := unstashed }.behavior ≠ .stopped := by
    intro hstopped
    cases hbehavior with
    | inl heq => exact nomatch heq.symm.trans hstopped
    | inr heq => exact nomatch heq.symm.trans hstopped
  obtain ⟨hreached, hold⟩ : Finished r'.actor := by
    rw [ha'] at hafter ⊢
    exact finished_receive hbefore hafter
  refine ⟨⟨r'.actor.readiness.healthy, hreached.1.ge, hinvariant.healthy, fun hchecks => ?_⟩, ?_⟩
  · rw [hinvariant.comparable.eq_of_targetCountReached hreached]
    exact hinvariant.ready hchecks
  · exact Finset.subset_empty.mp (hold ▸ hinvariant.old)

end Marathon.Deployment.TaskReplaceActor

namespace Marathon.Deployment.TaskReplaceActor.Web

open Lib

/-! ## What a former life has started -/

/-- The only instance is of the new version, and no old one is left. -/
def alreadyStarted (condition : Condition) : State runSpec where
  specInstances := [instanceOf ⟨1⟩ 0 condition .running]
  ignitionStrategy := ⟨0, 2⟩
  toKillOrdered := []
  distinct := List.nodup_singleton _
  computed := by
    have hhealthy : runningHealthy [instanceOf ⟨1⟩ 0 condition .running] =
        [instanceOf ⟨1⟩ 0 condition .running] := rfl
    simp [computeRestartStrategy, computeNrToKill, computeMaxCapacity, isTight, minHealthy_runSpec,
      plainCapacity_runSpec, hhealthy, show runSpec.instances = 1 from rfl]
  perm := .refl _
  ordered := .nil

def restarted : Restart runSpec := ⟨preStart runSpec, .empty⟩

def load (condition : Condition) : Event runSpec := .received (.loaded (alreadyStarted condition))

theorem exists_step_load (condition : Condition) : ∃ r',
    (restart runSpec).step restarted (load condition) = some r' ∧
      r'.actor.behavior = .stopped ∧ r'.seen = .ofState (alreadyStarted condition) := by
  refine ⟨⟨(preStart runSpec).initializing (.loaded (alreadyStarted condition)),
    .ofState (alreadyStarted condition)⟩, rfl, ?_, rfl⟩
  cases condition <;> decide +kernel

theorem replaced_load : ∃ r' : Restart runSpec, r'.actor.behavior = .stopped ∧ Replaced r' := by
  obtain ⟨r', hstep, hstopped, -⟩ := exists_step_load .running
  refine ⟨r', hstopped, replaced_of_stopped runSpec restarted r' (load .running) (.init ⟨rfl, rfl⟩)
    ?_ hstep hstopped⟩
  refine orderly_of_initializing rfl ?_
  rintro state hloaded i hi -
  cases hloaded
  obtain rfl := List.mem_singleton.mp hi
  rfl

theorem not_forall_replaced :
    ¬∀ (runSpec : RunSpec) (r r' : Restart runSpec) (e : Event runSpec),
      (restart runSpec).Reachable r → (restart runSpec).step r e = some r' →
        r'.actor.behavior = .stopped → Replaced r' := by
  intro h
  obtain ⟨r', hstep, hstopped, hseen⟩ := exists_step_load .scheduled
  obtain ⟨⟨up, hcard, hup, -⟩, -⟩ :=
    h runSpec restarted r' (load .scheduled) (.init ⟨rfl, rfl⟩) hstep hstopped
  rw [hseen] at hup
  have hempty : (Sightings.ofState (alreadyStarted .scheduled)).healthy = ∅ := rfl
  rw [hempty, Finset.subset_empty] at hup
  rw [hup] at hcard
  exact absurd hcard (by decide)

end Marathon.Deployment.TaskReplaceActor.Web
