import Marathon.Deployment.ImmediateKills

/-!
# The capacity of a replacement

The actor counts the new instances that are started. Whatever it hears, the old and the new
instances together stay within the capacity, and no more new ones are counted than wanted. The
count goes down by one with every report that a new instance is gone whose goal is terminal: an
instance that is reported twice is counted off twice, and replaced twice.
-/

namespace Marathon.Deployment.TaskReplaceActor

open Lib

variable {runSpec : RunSpec}

/-! ## What the handlers keep -/

/-- Nothing but some old instances are dropped, and new ones are queued within the capacity. -/
structure Launches (a a' : TaskReplaceActor runSpec) : Prop where
  behavior : a'.behavior = a.behavior ∨ a'.behavior = .stopped
  unstashed : a'.unstashed = a.unstashed
  state : a'.state = a.state
  old : a'.oldActiveInstanceIds ⊆ a.oldActiveInstanceIds
  queued : a'.queued.sum - a'.instancesStarted = a.queued.sum - a.instancesStarted
  wanted : a'.instancesStarted ≤ max runSpec.instances a.instancesStarted
  capacity : a'.oldActiveInstanceIds.card + a'.instancesStarted ≤
    max a.maxCapacity (a.oldActiveInstanceIds.card + a.instancesStarted)

namespace Launches

variable {a a' a'' : TaskReplaceActor runSpec}

theorem refl (a : TaskReplaceActor runSpec) : Launches a a where
  behavior := .inl rfl
  unstashed := rfl
  state := rfl
  old := subset_rfl
  queued := rfl
  wanted := le_max_right _ _
  capacity := le_max_right _ _

theorem maxCapacity_eq (h : Launches a a') : a'.maxCapacity = a.maxCapacity := by
  rw [maxCapacity, maxCapacity, h.state]

theorem trans (h : Launches a a') (h' : Launches a' a'') : Launches a a'' where
  behavior := by
    cases h'.behavior with
    | inl heq => exact h.behavior.imp heq.trans heq.trans
    | inr heq => exact .inr heq
  unstashed := h'.unstashed.trans h.unstashed
  state := h'.state.trans h.state
  old := h'.old.trans h.old
  queued := h'.queued.trans h.queued
  wanted := by
    have hle := h.wanted
    have hle' := h'.wanted
    omega
  capacity := by
    have hle := h.capacity
    have hle' := h'.capacity
    rw [h.maxCapacity_eq] at hle'
    omega

end Launches

theorem launches_health (a : TaskReplaceActor runSpec) (toKill : List InstanceId)
    (healthy ready : Finset InstanceId) (stash : List (Message runSpec))
    (goals : List (InstanceId × Goal)) :
    Launches a { a with
      toKill := toKill, healthy := healthy, ready := ready, stash := stash, goals := goals } :=
  ⟨.inl rfl, rfl, rfl, subset_rfl, rfl, le_max_right _ _, le_max_right _ _⟩

theorem launches_killNextOldInstance (a : TaskReplaceActor runSpec) :
    Launches a a.killNextOldInstance := by
  unfold killNextOldInstance
  split
  · exact .refl a
  · exact launches_health a _ _ _ _ _

theorem launches_killOldInstances (a : TaskReplaceActor runSpec) (n : ℕ) :
    Launches a (a.killOldInstances n) := by
  induction n generalizing a with
  | zero => exact .refl a
  | succ n ih => exact (launches_killNextOldInstance a).trans (ih _)

theorem launches_reconcile (a : TaskReplaceActor runSpec) (state : State runSpec) :
    Launches a (a.reconcileAlreadyStartedInstances state) := by
  obtain ⟨healthy, ready, heq⟩ := reconcileAlreadyStartedInstances_eq a state
  rw [heq]
  exact launches_health a _ _ _ _ _

theorem launches_launchInstances (a : TaskReplaceActor runSpec) : Launches a a.launchInstances := by
  unfold launchInstances
  split_ifs with hpos
  · have hle : a.instancesToStartNow ≤ max 0 (runSpec.instances - a.instancesStarted) :=
      min_le_left _ _
    have hle' : a.instancesToStartNow ≤
        max 0 (a.maxCapacity - a.oldActiveInstanceIds.card - a.instancesStarted) := min_le_right _ _
    refine ⟨.inl rfl, rfl, rfl, subset_rfl, ?_, ?_, ?_⟩
    · change (a.queued ++ [a.instancesToStartNow]).sum -
        (a.instancesStarted + a.instancesToStartNow) = _
      rw [List.sum_append, List.sum_singleton]
      omega
    · change a.instancesStarted + a.instancesToStartNow ≤ _
      omega
    · change (a.oldActiveInstanceIds.card : ℤ) + (a.instancesStarted + a.instancesToStartNow) ≤ _
      omega
  · exact .refl a

theorem launches_checkFinished (a : TaskReplaceActor runSpec) : Launches a a.checkFinished := by
  unfold checkFinished
  split_ifs
  · exact ⟨.inr rfl, rfl, rfl, subset_rfl, rfl, le_max_right _ _, le_max_right _ _⟩
  · exact .refl a

theorem launches_instanceConditionChanged (a : TaskReplaceActor runSpec) (id : InstanceId) :
    Launches a (a.instanceConditionChanged id) := by
  unfold instanceConditionChanged
  split_ifs
  · exact (launches_killNextOldInstance a).trans (launches_checkFinished _)
  · exact launches_checkFinished a

theorem launches_erase (a : TaskReplaceActor runSpec) (id : InstanceId) :
    Launches a { a with oldActiveInstanceIds := a.oldActiveInstanceIds.erase id } where
  behavior := .inl rfl
  unstashed := rfl
  state := rfl
  old := Finset.erase_subset _ _
  queued := rfl
  wanted := le_max_right _ _
  capacity := by
    have hle := Finset.card_erase_le (s := a.oldActiveInstanceIds) (a := id)
    dsimp only
    omega

theorem launches_oldInstanceChanged (a : TaskReplaceActor runSpec) (event : InstanceChanged) :
    Launches a (a.oldInstanceChanged event) := by
  have hgone := (launches_erase a event.id).trans
    (launches_health _ a.toKill (a.healthy.erase event.id) (a.ready.erase event.id) a.stash a.goals)
  unfold oldInstanceChanged
  dsimp only
  split_ifs
  · exact hgone.trans (launches_health _ _ _ _ _ _)
  · exact hgone.trans (launches_launchInstances _)
  · exact .refl a

/-! ## Readiness -/

theorem launches_instanceRunBehavior {a a' : TaskReplaceActor runSpec} {message : Message runSpec}
    (h : a.instanceRunBehavior message = some a') : Launches a a' := by
  unfold instanceRunBehavior at h
  split at h
  · dsimp only at h
    split_ifs at h
    · cases h
      exact launches_health a _ _ _ _ _
    · cases h
      exact (launches_health a _ _ _ _ _).trans (launches_instanceConditionChanged _ _)
  · cases h

theorem launches_instanceHealthBehavior {a a' : TaskReplaceActor runSpec}
    {message : Message runSpec} (h : a.instanceHealthBehavior message = some a') :
    Launches a a' := by
  unfold instanceHealthBehavior at h
  split at h
  · split_ifs at h
    cases h
    exact .refl a
  · split_ifs at h
    all_goals
      cases h
      exact (launches_health a _ _ _ _ _).trans (launches_instanceConditionChanged _ _)
  · cases h

theorem launches_readinessCheckBehavior {a a' : TaskReplaceActor runSpec}
    {message : Message runSpec} (h : a.readinessCheckBehavior message = some a') :
    Launches a a' := by
  unfold readinessCheckBehavior at h
  split at h
  · cases h
    exact .refl a
  · split_ifs at h
    · cases h
      exact (launches_health a _ _ _ _ _).trans (launches_instanceConditionChanged _ _)
    · cases h
      exact .refl a
  · cases h

theorem launches_readinessBehavior {a a' : TaskReplaceActor runSpec} {message : Message runSpec}
    (h : a.readinessBehavior message = some a') : Launches a a' := by
  unfold readinessBehavior at h
  dsimp only at h
  rw [Option.orElse_eq_orElse, Option.orElse_eq_or, Option.or_eq_some_iff] at h
  obtain hstart | ⟨-, hready⟩ := h
  · split_ifs at hstart
    · exact launches_instanceHealthBehavior hstart
    · exact launches_instanceRunBehavior hstart
  · split_ifs at hready
    exact launches_readinessCheckBehavior hready

/-! ## What a message does -/

/-- The new instance that the message takes off the count. -/
def reportedGone (a : TaskReplaceActor runSpec) : Message runSpec → Finset InstanceId
  | .instanceChanged event =>
    if a.behavior = .initialized ∧ event.runSpecId = runSpec.id ∧
        event.changed.runSpecId = runSpec.id ∧ isOldInstance runSpec event.changed = false ∧
          considerTerminal event.condition = true ∧
            event.changed.state.goal.isTerminal = true then
      {event.id}
    else ∅
  | _ => ∅

inductive Handled (a : TaskReplaceActor runSpec) :
    Message runSpec → Finset InstanceId → TaskReplaceActor runSpec → Prop
  | kept {message : Message runSpec} (stash : List (Message runSpec)) :
    Handled a message ∅ { a with stash := stash }
  | launches {message : Message runSpec} {a' : TaskReplaceActor runSpec}
    (hbehavior : a.behavior = .initialized) (h : Launches a a') : Handled a message ∅ a'
  | loaded {state : State runSpec} {a' : TaskReplaceActor runSpec}
    (hbehavior : a.behavior = .initializing) (h : Launches (a.setState state) a') :
    Handled a (.loaded state) ∅ a'
  | done (hbehavior : a.behavior = .initializing) :
    Handled a .done ∅
      { a with behavior := .initialized, stash := [], unstashed := a.stash ++ a.unstashed }
  | thrown {message : Message runSpec} : Handled a message ∅ { a with behavior := .thrown }
  | gone {message : Message runSpec} (id : InstanceId) (hbehavior : a.behavior = .initialized) :
    Handled a message {id} { a with instancesStarted := a.instancesStarted - 1 }

theorem reportedGone_of_behavior {a : TaskReplaceActor runSpec} (h : a.behavior ≠ .initialized)
    (message : Message runSpec) : reportedGone a message = ∅ := by
  unfold reportedGone
  split
  · exact if_neg fun hgone => h hgone.1
  · rfl

theorem handled_initializing {a : TaskReplaceActor runSpec} (hbehavior : a.behavior = .initializing)
    (message : Message runSpec) : Handled a message ∅ (a.initializing message) := by
  unfold initializing
  split
  · rename_i state
    exact .loaded hbehavior <| (launches_reconcile _ _).trans <|
      (launches_killOldInstances _ _).trans <|
        (launches_launchInstances _).trans (launches_checkFinished _)
  · exact .done hbehavior
  · exact .thrown
  · exact .kept _

theorem reportedGone_of_readinessBehavior {a a' : TaskReplaceActor runSpec}
    {message : Message runSpec} (h : a.readinessBehavior message = some a') :
    reportedGone a message = ∅ := by
  cases message with
  | instanceChanged event =>
    have hrunning : isRunningNew runSpec event = true := by
      by_contra hnot
      rw [Bool.not_eq_true] at hnot
      simp [readinessBehavior, instanceHealthBehavior, instanceRunBehavior, readinessCheckBehavior,
        hnot] at h
    have hcondition : event.condition = .running := by
      rw [isRunningNew, Bool.and_eq_true, decide_eq_true_eq] at hrunning
      exact hrunning.2
    refine if_neg ?_
    rintro ⟨-, -, -, -, hterminal, -⟩
    rw [hcondition] at hterminal
    cases hterminal
  | _ => rfl

theorem handled_newInstanceChanged {a : TaskReplaceActor runSpec} {event : InstanceChanged}
    (hbehavior : a.behavior = .initialized) (hid : event.runSpecId = runSpec.id)
    (hchanged : event.changed.runSpecId = runSpec.id)
    (hnew : isOldInstance runSpec event.changed = false) :
    Handled a (.instanceChanged event) (reportedGone a (.instanceChanged event))
      (a.newInstanceChanged event) := by
  have hgone : reportedGone a (.instanceChanged event) =
      if considerTerminal event.condition = true ∧ event.changed.state.goal.isTerminal = true then
        {event.id} else ∅ := by
    simp [reportedGone, hbehavior, hid, hchanged, hnew]
  rw [hgone]
  unfold newInstanceChanged
  cases hterminal : considerTerminal event.condition with
  | false =>
    simp only [Bool.false_and, Bool.false_eq_true, if_false, false_and]
    exact .launches hbehavior (.refl a)
  | true =>
    cases hgoal : event.changed.state.goal with
    | running => exact .launches hbehavior (launches_health a _ _ _ _ _)
    | stopped => exact .gone event.id hbehavior
    | decommissioned => exact .gone event.id hbehavior

theorem handled_replaceBehavior {a : TaskReplaceActor runSpec} (hbehavior : a.behavior = .initialized)
    (message : Message runSpec) :
    Handled a message (reportedGone a message) (a.replaceBehavior message) := by
  cases message with
  | instanceChanged event =>
    unfold replaceBehavior
    dsimp only
    split_ifs with hid hchanged hold
    · rw [reportedGone, if_neg fun h => hid h.2.1]
      exact .launches hbehavior (.refl a)
    · rw [reportedGone, if_neg fun h => hchanged h.2.2.1]
      exact .thrown
    · rw [reportedGone, if_neg fun h => by simp [hold] at h]
      exact .launches hbehavior (launches_oldInstanceChanged a event)
    · exact handled_newInstanceChanged hbehavior (not_not.mp hid) (not_not.mp hchanged) (Bool.eq_false_iff.mpr hold)
  | failure => exact .thrown
  | checkFinished => exact .launches hbehavior (launches_checkFinished a)
  | _ => exact .launches hbehavior (.refl a)

/-- A message is stashed, or it loads the state, begins or ends the work, or has instances
launched, or takes an instance off the count. -/
theorem handled_receive (a : TaskReplaceActor runSpec) (message : Message runSpec) :
    Handled a message (reportedGone a message) (a.receive message) := by
  unfold receive
  split
  · rename_i hbehavior
    rw [reportedGone_of_behavior (by simp [hbehavior])]
    exact handled_initializing hbehavior message
  · rename_i hbehavior
    cases hready : a.readinessBehavior message with
    | some a' =>
      rw [reportedGone_of_readinessBehavior hready]
      exact .launches hbehavior (launches_readinessBehavior hready)
    | none => exact handled_replaceBehavior hbehavior message
  · rename_i hbehavior
    rw [reportedGone_of_behavior (by simp [hbehavior])]
    exact .kept a.stash
  · rename_i hbehavior
    rw [reportedGone_of_behavior (by simp [hbehavior])]
    exact .kept a.stash

/-! ## Runs -/

/-- A run, and the new instances that have been reported gone with a terminal goal. -/
structure Run (runSpec : RunSpec) where
  actor : TaskReplaceActor runSpec
  gone : Finset InstanceId

/-- The new instance that the next message takes off the count. -/
def reports (a : TaskReplaceActor runSpec) (event : Event runSpec) : Finset InstanceId :=
  match a.next event with
  | some (message, a) => reportedGone a message
  | none => ∅

/-- A life of the actor, with any instances at its start and any messages after. -/
def replacement (runSpec : RunSpec) : Machine (Run runSpec) (Event runSpec) where
  Init r := r = ⟨preStart runSpec, ∅⟩
  step r event := (r.actor.step event).map fun a => ⟨a, r.gone ∪ reports r.actor event⟩

/-- No new instance is reported gone that was reported before. -/
def ReportedOnce (r : Run runSpec) (event : Event runSpec) : Prop :=
  Disjoint r.gone (reports r.actor event)

instance (r : Run runSpec) (event : Event runSpec) : Decidable (ReportedOnce r event) :=
  inferInstanceAs (Decidable (Disjoint _ _))

theorem exists_handled {r r' : Run runSpec} {event : Event runSpec}
    (h : (replacement runSpec).step r event = some r') :
    ∃ message unstashed, Handled { r.actor with unstashed := unstashed } message
        (reports r.actor event) r'.actor ∧
      r'.gone = r.gone ∪ reports r.actor event ∧
        (r.actor.unstashed = [] → unstashed = [] ∧ r.actor.expects message = true) := by
  obtain ⟨a', hstep, rfl⟩ := Option.map_eq_some_iff.mp h
  unfold step at hstep
  split_ifs at hstep
  obtain ⟨⟨message, a⟩, hnext, rfl⟩ := Option.map_eq_some_iff.mp hstep
  have hreports : reports r.actor event = reportedGone a message := by
    unfold reports
    rw [hnext]
  have ha : ∃ unstashed, a = { r.actor with unstashed := unstashed } ∧
      (r.actor.unstashed = [] → unstashed = [] ∧ r.actor.expects message = true) := by
    cases event with
    | received message' =>
      unfold next at hnext
      dsimp only at hnext
      split_ifs at hnext with hexpects
      cases hnext
      exact ⟨r.actor.unstashed, rfl, fun h => ⟨h, (Bool.and_eq_true_iff.mp hexpects).2⟩⟩
    | unstashed =>
      unfold next at hnext
      dsimp only at hnext
      split at hnext
      · cases hnext
      · rename_i rest hunstashed
        cases hnext
        exact ⟨rest, rfl, fun h => by simp [hunstashed] at h⟩
  obtain ⟨unstashed, rfl, hunstashed⟩ := ha
  exact ⟨message, unstashed, hreports ▸ handled_receive _ message, rfl, hunstashed⟩

/-! ## The bounds -/

/-- The instances that the actor finds: old ones with the goal to be running, and new ones. -/
def initialTotal (state : State runSpec) : ℤ :=
  (oldActiveInstances runSpec state.specInstances).length + state.instancesAlreadyStarted.length

/-- Of a state that is loaded, old and new instances stay within the capacity, and the new ones
within the number that is wanted. -/
def WithinBounds (r : Run runSpec) : Prop :=
  ∀ state, r.actor.state = some state →
    r.actor.oldActiveInstanceIds.card + r.actor.instancesStarted ≤
        max state.ignitionStrategy.maxCapacity (initialTotal state) ∧
      r.actor.instancesStarted ≤ max runSpec.instances state.instancesAlreadyStarted.length

/-- Messages are unstashed when the actor begins its work, and it works on what it has loaded. -/
structure Inv (r : Run runSpec) : Prop where
  unstashed : r.actor.behavior = .initializing → r.actor.unstashed = []
  unloaded : r.actor.state = none →
    r.actor.behavior ≠ .initialized ∧ r.actor.queued = [] ∧ r.gone = ∅
  bounds : WithinBounds r

theorem inv_init {r : Run runSpec} (h : (replacement runSpec).Init r) : Inv r := by
  obtain rfl := h
  exact ⟨fun _ => rfl, fun _ => ⟨by simp [preStart], rfl, rfl⟩, fun _ h => by simp [preStart] at h⟩

theorem Launches.withinBounds {a a' : TaskReplaceActor runSpec} {state : State runSpec}
    (h : Launches a a') (hstate : a.state = some state)
    (hcapacity : a.oldActiveInstanceIds.card + a.instancesStarted ≤
      max state.ignitionStrategy.maxCapacity (initialTotal state))
    (hwanted : a.instancesStarted ≤ max runSpec.instances state.instancesAlreadyStarted.length) :
    a'.oldActiveInstanceIds.card + a'.instancesStarted ≤
        max state.ignitionStrategy.maxCapacity (initialTotal state) ∧
      a'.instancesStarted ≤ max runSpec.instances state.instancesAlreadyStarted.length := by
  have hle := h.capacity
  have hle' := h.wanted
  rw [maxCapacity, hstate] at hle
  dsimp only at hle
  omega

theorem Launches.withinBounds_setState {a a' : TaskReplaceActor runSpec} {state : State runSpec}
    (h : Launches (a.setState state) a') :
    a'.oldActiveInstanceIds.card + a'.instancesStarted ≤
        max state.ignitionStrategy.maxCapacity (initialTotal state) ∧
      a'.instancesStarted ≤ max runSpec.instances state.instancesAlreadyStarted.length := by
  refine h.withinBounds rfl ?_ (le_max_right _ _)
  have hcard := List.toFinset_card_le
    ((oldActiveInstances runSpec state.specInstances).map Instance.instanceId)
  rw [List.length_map] at hcard
  change ((List.toFinset _).card : ℤ) + (state.instancesAlreadyStarted.length : ℤ) ≤ _
  unfold initialTotal
  omega

theorem inv_step {r r' : Run runSpec} {event : Event runSpec} (hinv : Inv r)
    (h : (replacement runSpec).step r event = some r') : Inv r' := by
  obtain ⟨message, unstashed, hhandled, hgone, hunstashed⟩ := exists_handled h
  obtain ⟨a', gone'⟩ := r'
  dsimp only at hhandled hgone
  generalize reports r.actor event = reported at hhandled hgone
  cases hhandled with
  | kept stash =>
    refine ⟨fun hb => (hunstashed (hinv.unstashed hb)).1, fun hs => ?_, hinv.bounds⟩
    rw [hgone, Finset.union_empty]
    exact hinv.unloaded hs
  | launches hb hlaunches =>
    refine ⟨fun hb' => ?_, fun hs => ?_, fun state hs => ?_⟩
    · have hnot : a'.behavior ≠ .initializing := by
        rcases hlaunches.behavior with heq | heq <;> rw [heq]
        · exact hb ▸ by decide
        · decide
      exact absurd hb' hnot
    · exact absurd hb (hinv.unloaded (hlaunches.state.symm.trans hs)).1
    · have hs' : r.actor.state = some state := hlaunches.state.symm.trans hs
      exact hlaunches.withinBounds hs' (hinv.bounds state hs').1 (hinv.bounds state hs').2
  | loaded hb hlaunches =>
    rename_i state
    refine ⟨fun _ => ?_, fun hs => ?_, fun state' hs => ?_⟩
    · exact hlaunches.unstashed.trans (hunstashed (hinv.unstashed hb)).1
    · cases hlaunches.state.symm.trans hs
    · cases hlaunches.state.symm.trans hs
      exact hlaunches.withinBounds_setState
  | done hb =>
    -- nothing is done before the state is loaded
    have hloaded : r.actor.state.isSome = true := (hunstashed (hinv.unstashed hb)).2
    refine ⟨fun hb' => (by cases hb'), fun hs => ?_, hinv.bounds⟩
    change r.actor.state = none at hs
    rw [hs] at hloaded
    cases hloaded
  | thrown =>
    refine ⟨fun hb' => (by cases hb'), fun hs => ?_, hinv.bounds⟩
    rw [hgone, Finset.union_empty]
    exact ⟨by simp, (hinv.unloaded hs).2⟩
  | gone id hb =>
    refine ⟨fun hb' => ?_, fun hs => absurd hb (hinv.unloaded hs).1, fun state hs => ?_⟩
    · cases hb.symm.trans hb'
    · obtain ⟨hcapacity, hwanted⟩ := hinv.bounds state hs
      change (r.actor.oldActiveInstanceIds.card : ℤ) + (r.actor.instancesStarted - 1) ≤ _ ∧
        r.actor.instancesStarted - 1 ≤ _
      omega

theorem inv_reachable {r : Run runSpec} (h : (replacement runSpec).Reachable r) : Inv r :=
  h.invariant (fun _ => inv_init) fun _ _ _ hinv _ hs => inv_step hinv hs

/-! ## What is queued -/

/-- As many instances are queued as are counted now and were not at the start, or are gone. -/
def Counted (r : Run runSpec) : Prop :=
  ∀ state, r.actor.state = some state →
    r.actor.queued.sum = r.actor.instancesStarted + r.gone.card - state.instancesAlreadyStarted.length

theorem counted_step {r r' : Run runSpec} {event : Event runSpec} (hinv : Inv r) (hcounted : Counted r)
    (honce : ReportedOnce r event) (h : (replacement runSpec).step r event = some r') :
    Counted r' := by
  obtain ⟨message, unstashed, hhandled, hgone, hunstashed⟩ := exists_handled h
  obtain ⟨a', gone'⟩ := r'
  unfold ReportedOnce at honce
  dsimp only at hhandled hgone
  generalize reports r.actor event = reported at hhandled hgone honce
  obtain rfl := hgone
  intro state hs
  cases hhandled with
  | kept stash =>
    rw [Finset.union_empty]
    exact hcounted state hs
  | launches hb hlaunches =>
    have hsum := hcounted state (hlaunches.state.symm.trans hs)
    have hqueued := hlaunches.queued
    rw [Finset.union_empty]
    dsimp only at hqueued ⊢
    omega
  | loaded hb hlaunches =>
    rename_i loaded
    obtain rfl : loaded = state := Option.some.inj (hlaunches.state.symm.trans hs)
    have hexpects := (hunstashed (hinv.unstashed hb)).2
    rw [expects, Bool.and_eq_true, Option.isNone_iff_eq_none] at hexpects
    obtain ⟨-, hempty, hgone⟩ := hinv.unloaded hexpects.2
    have hqueued := hlaunches.queued
    change a'.queued.sum - a'.instancesStarted =
      r.actor.queued.sum - (loaded.instancesAlreadyStarted.length : ℤ) at hqueued
    rw [hempty, List.sum_nil] at hqueued
    dsimp only
    rw [hgone, Finset.union_empty, Finset.card_empty]
    omega
  | done hb =>
    rw [Finset.union_empty]
    exact hcounted state hs
  | thrown =>
    rw [Finset.union_empty]
    exact hcounted state hs
  | gone id hb =>
    have hsum := hcounted state hs
    rw [Finset.card_union_of_disjoint honce, Finset.card_singleton]
    push_cast
    omega

/-- New instances are queued once for each that is missing: at the start, or because it is gone. -/
def QueuesMissing (r : Run runSpec) : Prop :=
  ∀ state, r.actor.state = some state →
    r.actor.queued.sum ≤
      max 0 (runSpec.instances - state.instancesAlreadyStarted.length) + r.gone.card

theorem queuesMissing_of_counted {r : Run runSpec} (hinv : Inv r) (hcounted : Counted r) :
    QueuesMissing r := by
  intro state hs
  have hwanted := (hinv.bounds state hs).2
  have hsum := hcounted state hs
  omega

/-- The bounds hold in every run, and the restart strategy can always be computed. As long as
no new instance is reported gone twice, none is queued twice for the one that is missing. -/
theorem withinBounds_and_queuesMissing (hinstances : 0 < runSpec.instances)
    (hvalid : ValidUpgradeStrategy runSpec.upgradeStrategy) {r : Run runSpec}
    (h : (replacement runSpec).ReachableIf ReportedOnce r) :
    WithinBounds r ∧ QueuesMissing r ∧
      ∀ currentInstances, ∃ strategy,
        computeRestartStrategy runSpec currentInstances = .ok strategy := by
  have hcounted : Counted r := by
    refine h.invariant_of (fun r hr => inv_reachable hr.reachable) ?_ ?_
    · rintro r rfl state hs
      simp [preStart] at hs
    · exact fun r event r' hinv hcounted honce hs => counted_step hinv hcounted honce hs
  have hinv := inv_reachable h.reachable
  exact ⟨hinv.bounds, queuesMissing_of_counted hinv hcounted,
    exists_computeRestartStrategy hinstances hvalid⟩

end Marathon.Deployment.TaskReplaceActor

namespace Marathon.Deployment.TaskReplaceActor.Web

open Lib

/-! ## A new instance beside the old one -/

def newInstance : Instance := instanceOf ⟨1⟩ 2 .running .running

theorem oldActiveInstances_started :
    [runningInstance].Perm (oldActiveInstances runSpec [runningInstance, newInstance]) :=
  .refl _

/-- The old instance is killed at once. -/
def started : State runSpec where
  specInstances := [runningInstance, newInstance]
  ignitionStrategy := ⟨1, 2⟩
  toKillOrdered := [runningInstance]
  distinct := by decide
  computed := by
    have hhealthy : runningHealthy [runningInstance, newInstance] =
        [runningInstance, newInstance] := rfl
    simp [computeRestartStrategy, computeNrToKill, computeMaxCapacity, isTight, minHealthy_runSpec,
      plainCapacity_runSpec, hhealthy, show runSpec.instances = 1 from rfl]
  perm := oldActiveInstances_started
  ordered := pairwise_runningInstance

def changed (version : Timestamp) (uuid : ℕ) (condition : Condition) : Event runSpec :=
  let i := instanceOf version uuid condition .decommissioned
  .received (.instanceChanged ⟨i.instanceId, version, ⟨["web"]⟩, condition, i⟩)

/-- The new instance is decommissioned by someone else and gets lost; the old one is killed. -/
def lostRun : List (Event runSpec) :=
  [.received (.loaded started), .received .done, changed ⟨1⟩ 2 .unreachable, changed ⟨0⟩ 0 .killed]

/-- It is reported again when it is taken to be lost for good. -/
def lostTwiceRun : List (Event runSpec) :=
  [.received (.loaded started), .received .done, changed ⟨1⟩ 2 .unreachable,
    changed ⟨1⟩ 2 .unreachableInactive, changed ⟨0⟩ 0 .killed]

def initial : Run runSpec := ⟨preStart runSpec, ∅⟩

theorem lostRun_queued :
    ((replacement runSpec).runIf ReportedOnce initial lostRun).map (fun r => r.actor.queued) =
      some [1] := by
  decide

theorem lostTwiceRun_queued :
    ((replacement runSpec).run initial lostTwiceRun).map
      (fun r => (r.actor.state.map fun state => state.instancesAlreadyStarted.length,
        r.actor.queued, r.gone.card)) = some (some 1, [2], 1) := by
  decide

theorem lostRun_withinBounds_and_queuesMissing :
    ∃ r, (replacement runSpec).ReachableIf ReportedOnce r ∧ r.actor.queued = [1] ∧
      WithinBounds r ∧ QueuesMissing r := by
  obtain ⟨r, hrun, hqueued⟩ := Option.map_eq_some_iff.mp lostRun_queued
  have hreachable : (replacement runSpec).ReachableIf ReportedOnce r :=
    Machine.reachableIf_of_runIf lostRun (.init rfl) hrun
  obtain ⟨hbounds, hmissing, -⟩ :=
    withinBounds_and_queuesMissing (by decide) validUpgradeStrategy_runSpec hreachable
  exact ⟨r, hreachable, hqueued, hbounds, hmissing⟩

theorem not_forall_queuesMissing :
    ¬∀ runSpec : RunSpec, 0 < runSpec.instances → ValidUpgradeStrategy runSpec.upgradeStrategy →
      ∀ r, (replacement runSpec).Reachable r → WithinBounds r ∧ QueuesMissing r := by
  intro h
  obtain ⟨r, hrun, hfacts⟩ := Option.map_eq_some_iff.mp lostTwiceRun_queued
  have hreachable : (replacement runSpec).Reachable r :=
    Machine.reachableIf_of_runIf lostTwiceRun (.init rfl) hrun
  simp only [Prod.mk.injEq] at hfacts
  obtain ⟨hstarted, hqueued, hgone⟩ := hfacts
  obtain ⟨state, hstate, hlength⟩ := Option.map_eq_some_iff.mp hstarted
  have hmissing := (h runSpec (by decide) validUpgradeStrategy_runSpec r hreachable).2 state hstate
  rw [hqueued, hgone, hlength] at hmissing
  exact absurd hmissing (by decide)

end Marathon.Deployment.TaskReplaceActor.Web
