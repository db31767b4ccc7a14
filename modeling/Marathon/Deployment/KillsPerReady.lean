import Marathon.Deployment.CompletedReplacements

/-!
# One kill for each instance that is ready

Whenever the actor hears of an instance that is healthy and ready, one more old instance is
killed. It may hear so again of the same instance: a second event of its running, or a second
result of its readiness check. As long as it does not, no more old instances are killed than
new ones are there to replace them.
-/

namespace Marathon.Deployment.TaskReplaceActor

open Lib
open ReadinessBehavior (showsHealthy showsReady)

variable {runSpec : RunSpec}

/-! ## The kills and the instances that are ready -/

/-- What is known of the instances that a former life has started. -/
def initialReadiness (state : State runSpec) : ReadinessBehavior :=
  state.instancesAlreadyStarted.foldl
    (ReadinessBehavior.reconcileHealthAndReadinessCheck runSpec) .empty

/-- How many old instances are killed when the instances are loaded. -/
def immediateKills (state : State runSpec) : ℕ :=
  (state.toKillOrdered.take state.ignitionStrategy.nrToKillImmediately.toNat).length

/-- How many are told to stop after that. -/
def laterKills (state : State runSpec) (a : TaskReplaceActor runSpec) : ℕ :=
  a.goals.length - immediateKills state

/-- The old instances that have not been told to stop. -/
def notToldToStop (state : State runSpec) (a : TaskReplaceActor runSpec) : Finset InstanceId :=
  Sightings.ids (oldActiveInstances runSpec state.specInstances) \ (a.goals.map Prod.fst).toFinset

/-- After the immediate kills at most one old instance is told to stop for each new one that is
healthy and ready. So the old ones that are left and the new ones that are ready are never fewer
than the minimum, or than they were after the immediate kills; and they are never fewer than
before these either, when the immediate kills alone keep to that. -/
structure KeepsPace (state : State runSpec) (a : TaskReplaceActor runSpec) : Prop where
  kills : laterKills state a ≤ a.readiness.both.card
  capacity : min (minHealthy runSpec)
      (state.toKillOrdered.length - immediateKills state +
        (initialReadiness state).both.card) ≤
    (notToldToStop state a).card + a.readiness.both.card
  surplus : min (minHealthy runSpec)
        (state.toKillOrdered.length + (initialReadiness state).both.card) ≤
      state.toKillOrdered.length - immediateKills state +
        (initialReadiness state).both.card →
    min (minHealthy runSpec)
        (state.toKillOrdered.length + (initialReadiness state).both.card) ≤
      (notToldToStop state a).card + a.readiness.both.card

/-! ## Runs in which no instance fails -/

/-- An instance that is to run is gone. -/
def fails : ReadinessBehavior.Message → Bool
  | .instanceChanged event =>
    considerTerminal event.condition && event.changed.state.goal = .running
  | _ => false

/-- A life of the actor in which no instance fails on its own. -/
def undisturbed (runSpec : RunSpec) : Machine (TaskReplaceActor runSpec) (Event runSpec) where
  Init a := a = preStart runSpec
  step a e := if (a.handled e).any fails then none else a.step e

/-- The instances that a message says are ready, whether or not they are known to be. The events
of an instance's health are left out: they are handled only for an instance that is not healthy
yet. -/
def notifies (runSpec : RunSpec) : ReadinessBehavior.Message → Finset InstanceId
  | .instanceHealthChanged _ => ∅
  | message => showsReady runSpec message

/-- An old instance that was told to stop is gone. -/
def isGone (runSpec : RunSpec) (event : InstanceChanged) : Bool :=
  isOldInstance runSpec event.changed &&
    (considerTerminal event.condition || event.condition = .scheduled) &&
      event.changed.state.goal.isTerminal

/-- While an old instance is left to be killed, no message says again that an instance is ready
that is both healthy and ready; and none of these is reported gone as an old instance. -/
structure Unrepeated (a : TaskReplaceActor runSpec) (e : Event runSpec) : Prop where
  once : a.toKill ≠ [] → ∀ message, a.handled e = some message →
    Disjoint (notifies runSpec message) a.readiness.both
  stays : ∀ event, a.handled e = some (.instanceChanged event) → isGone runSpec event = true →
    event.id ∉ a.readiness.both

/-! ## What a message does -/

/-- The next `n` old instances are killed, and nothing else is asked of the instances. -/
structure KillsNext (a a' : TaskReplaceActor runSpec) (n : ℕ) : Prop where
  state : a'.state = a.state
  goals : a'.goals = a.goals ++ (a.toKill.take n).map fun id => (id, killGoal runSpec)
  toKill : a'.toKill = a.toKill.drop n

variable {a a' a'' : TaskReplaceActor runSpec} {e : Event runSpec}

theorem KillsNext.zero (hstate : a'.state = a.state) (hgoals : a'.goals = a.goals)
    (htoKill : a'.toKill = a.toKill) : KillsNext a a' 0 where
  state := hstate
  goals := by rw [hgoals, List.take_zero, List.map_nil, List.append_nil]
  toKill := by rw [htoKill, List.drop_zero]

theorem KillsNext.trans_zero {n : ℕ} (h : KillsNext a a' n) (h' : KillsNext a' a'' 0) :
    KillsNext a a'' n where
  state := h'.state.trans h.state
  goals := by rw [h'.goals, List.take_zero, List.map_nil, List.append_nil, h.goals]
  toKill := by rw [h'.toKill, List.drop_zero, h.toKill]

theorem killsNext_killNextOldInstance (a : TaskReplaceActor runSpec) :
    KillsNext a a.killNextOldInstance 1 where
  state := by
    unfold killNextOldInstance
    split <;> rfl
  goals := goals_killNextOldInstance a
  toKill := toKill_killNextOldInstance a

theorem killsNext_checkFinished (a : TaskReplaceActor runSpec) : KillsNext a a.checkFinished 0 := by
  unfold checkFinished
  split <;> exact .zero rfl rfl rfl

theorem killsNext_launchInstances (a : TaskReplaceActor runSpec) :
    KillsNext a a.launchInstances 0 := by
  unfold launchInstances
  split <;> exact .zero rfl rfl rfl

theorem killsNext_instanceConditionChanged (a : TaskReplaceActor runSpec) (id : InstanceId) :
    KillsNext a (a.instanceConditionChanged id)
      (if id ∈ a.readiness.both then 1 else 0) := by
  unfold instanceConditionChanged
  split_ifs with hcondition hboth hboth
  · exact (killsNext_killNextOldInstance a).trans_zero (killsNext_checkFinished _)
  · exact absurd (Finset.mem_inter.mpr hcondition) hboth
  · exact absurd (Finset.mem_inter.mp hboth) hcondition
  · exact killsNext_checkFinished a

/-- What hearing a message does to the kills and the sets. -/
inductive Heard (a : TaskReplaceActor runSpec) (message : ReadinessBehavior.Message) :
    TaskReplaceActor runSpec → Prop
  | kept {a' : TaskReplaceActor runSpec} (hkills : KillsNext a a' 0)
    (hreadiness : a'.readiness = a.readiness) : Heard a message a'
  | noted {a' : TaskReplaceActor runSpec} (hkills : KillsNext a a' 0)
    (hreadiness : a'.readiness = a.readiness.noted runSpec message) : Heard a message a'
  | kills {a' : TaskReplaceActor runSpec} (id : InstanceId) (hkills : KillsNext a a' 1)
    (hreadiness : a'.readiness = a.readiness.noted runSpec message)
    (hboth : id ∈ a'.readiness.both)
    (hnew : id ∈ notifies runSpec message ∨ id ∉ a.healthy) : Heard a message a'
  | gone {a' : TaskReplaceActor runSpec} (event : InstanceChanged)
    (hmessage : message = .instanceChanged event) (hgone : isGone runSpec event = true)
    (hkills : KillsNext a a' 0)
    (hreadiness : a'.readiness = a.readiness.instanceTerminated event.id) : Heard a message a'
  | failed {a' : TaskReplaceActor runSpec} (hfails : fails message = true) : Heard a message a'

theorem readiness_of_isGone {event : InstanceChanged} (hold : isOldInstance runSpec event.changed = true) :
    (a.oldInstanceChanged event).readiness = a.readiness ∧
        KillsNext a (a.oldInstanceChanged event) 0 ∨
      isGone runSpec event = true ∧ KillsNext a (a.oldInstanceChanged event) 0 ∧
          (a.oldInstanceChanged event).readiness = a.readiness.instanceTerminated event.id ∨
        fails (.instanceChanged event) = true := by
  unfold oldInstanceChanged
  dsimp only
  split_ifs with hrunning hterminal
  · exact .inr (.inr hrunning)
  · refine .inr (.inl ⟨?_, ?_, readiness_launchInstances _⟩)
    · rw [isGone, hold, Bool.true_and]
      exact hterminal
    · refine KillsNext.trans_zero ?_ (killsNext_launchInstances _)
      exact .zero rfl rfl rfl
  · exact .inl ⟨rfl, .zero rfl rfl rfl⟩

theorem readiness_of_new (event : InstanceChanged) :
    (a.newInstanceChanged event).readiness = a.readiness ∧
        KillsNext a (a.newInstanceChanged event) 0 ∨
      fails (.instanceChanged event) = true := by
  unfold newInstanceChanged
  dsimp only
  split_ifs with hrunning
  · exact .inr hrunning
  · exact .inl ⟨rfl, .zero rfl rfl rfl⟩
  · exact .inl ⟨rfl, .zero rfl rfl rfl⟩

variable {message : Message runSpec} {shown : ReadinessBehavior.Message} {s s' : ReadinessBehavior}
  {state : State runSpec}

theorem heard_replaceBehavior
    (hshown : message.readiness = some shown) : Heard a shown (a.replaceBehavior message) := by
  cases message with
  | instanceChanged event =>
    cases hshown
    unfold replaceBehavior
    dsimp only
    split_ifs with hid hchanged hold
    · exact .kept (.zero rfl rfl rfl) rfl
    · exact .kept (.zero rfl rfl rfl) rfl
    · obtain ⟨hkept, hkills⟩ | ⟨hgone, hkills, hreadiness⟩ | hfails := readiness_of_isGone hold
      · exact .kept hkills hkept
      · exact .gone event rfl hgone hkills hreadiness
      · exact .failed hfails
    · obtain ⟨hkept, hkills⟩ | hfails := readiness_of_new (a := a) event
      · exact .kept hkills hkept
      · exact .failed hfails
  | instanceHealthChanged event => exact .kept (.zero rfl rfl rfl) rfl
  | readinessCheckStreamDone => exact .kept (.zero rfl rfl rfl) rfl
  | readinessCheckResult taskId ready => exact .kept (.zero rfl rfl rfl) rfl
  | _ => cases hshown

theorem mem_notifies_of_hook
    {id : InstanceId} (h : s.readinessBehavior runSpec shown = some (s', some id)) :
    id ∈ notifies runSpec shown ∨ id ∉ s.healthy := by
  obtain hstart | ⟨-, hchecks, hready⟩ := ReadinessBehavior.readinessBehavior_eq_some_iff.mp h
  · cases shown with
    | instanceChanged event =>
      split_ifs at hstart with hchecks
      · simp only [ReadinessBehavior.instanceHealthBehavior] at hstart
        split_ifs at hstart
        cases hstart
      · simp only [ReadinessBehavior.instanceRunBehavior] at hstart
        split_ifs at hstart with hrunning hready
        · cases hstart
        · obtain rfl := Option.some.inj (Prod.mk.inj (Option.some.inj hstart)).2
          left
          simp [notifies, showsReady, showsHealthy, hchecks, hrunning, hready]
    | instanceHealthChanged event =>
      right
      split_ifs at hstart
      · simp only [ReadinessBehavior.instanceHealthBehavior] at hstart
        split_ifs at hstart with hhealthy
        all_goals
          obtain rfl := Option.some.inj (Prod.mk.inj (Option.some.inj hstart)).2
          exact hhealthy.2.2.2
      · cases hstart
    | readinessCheckStreamDone => split_ifs at hstart <;> cases hstart
    | readinessCheckResult taskId ready => split_ifs at hstart <;> cases hstart
  · left
    cases shown with
    | readinessCheckResult taskId ready =>
      simp only [ReadinessBehavior.readinessCheckBehavior] at hready
      split_ifs at hready with htrue
      · obtain rfl := Option.some.inj (Prod.mk.inj (Option.some.inj hready)).2
        simp [notifies, showsReady, hchecks, htrue]
      · cases hready
    | _ => cases hready

theorem heard_noted {hook : Option InstanceId}
    (h : a.readiness.readinessBehavior runSpec shown = some (s', hook)) :
    Heard a shown (a.noted (s', hook)) := by
  have hs' := ReadinessBehavior.readinessBehavior_eq_some h
  cases hook with
  | none => exact .noted (.zero rfl rfl rfl) hs'
  | some id =>
    have hreadiness : (a.noted (s', some id)).readiness = s' := readiness_noted a (s', some id)
    have hkills : KillsNext a (a.noted (s', some id)) (if id ∈ s'.both then 1 else 0) := by
      have hhook := killsNext_instanceConditionChanged
        { a with healthy := s'.healthy, ready := s'.ready } id
      exact ⟨hhook.state, hhook.goals, hhook.toKill⟩
    split_ifs at hkills with hboth
    · refine .kills id hkills (hreadiness.trans hs') ?_ (mem_notifies_of_hook h)
      rw [hreadiness]
      exact hboth
    · exact .noted hkills (hreadiness.trans hs')

theorem heard_receive (hbehavior : a.behavior = .initialized)
    (hshown : message.readiness = some shown) : Heard a shown (a.receive message) := by
  unfold receive
  rw [hbehavior]
  rw [readinessBehavior_eq, hshown, Option.bind_some]
  cases hready : a.readiness.readinessBehavior runSpec shown with
  | some outcome =>
    rw [Option.map_some, Option.getD_some]
    exact heard_noted hready
  | none =>
    rw [Option.map_none, Option.getD_none]
    exact heard_replaceBehavior hshown

/-! ## Counting -/

/-- The instances that are told to stop are the first of the kill order, and those told after the
immediate kills are made up for by instances that have become healthy and ready. -/
structure Counts (state : State runSpec) (a : TaskReplaceActor runSpec) : Prop where
  order : a.goals.map Prod.fst ++ a.toKill = state.toKillOrdered.map Instance.instanceId
  atOnce : immediateKills state ≤ a.goals.length
  ready : a.goals.length + (initialReadiness state).both.card ≤
    immediateKills state + a.readiness.both.card

theorem both_noted_subset (s : ReadinessBehavior) (shown : ReadinessBehavior.Message) :
    s.both ⊆ (s.noted runSpec shown).both :=
  Finset.inter_subset_inter Finset.subset_union_left Finset.subset_union_left

theorem both_instanceTerminated {id : InstanceId} (h : id ∉ s.both) :
    (s.instanceTerminated id).both = s.both := by
  ext other
  simp only [ReadinessBehavior.both, ReadinessBehavior.instanceTerminated, Finset.mem_inter,
    Finset.mem_erase]
  constructor
  · exact fun hmem => ⟨hmem.1.2, hmem.2.2⟩
  · intro hmem
    have hne : other ≠ id := by
      rintro rfl
      exact h (Finset.mem_inter.mpr hmem)
    exact ⟨⟨hne, hmem.1⟩, hne, hmem.2⟩

theorem Counts.of_killsNext {n : ℕ} (h : Counts state a)
    (hkills : KillsNext a a' n)
    (hready : a.readiness.both.card + (a.toKill.take n).length ≤ a'.readiness.both.card) :
    Counts state a' := by
  have hlength : a'.goals.length = a.goals.length + (a.toKill.take n).length := by
    rw [hkills.goals, List.length_append, List.length_map]
  refine ⟨?_, ?_, ?_⟩
  · have hmap : (a.toKill.take n).map (Prod.fst ∘ fun id => (id, killGoal runSpec)) =
        a.toKill.take n := List.map_id _
    rw [hkills.goals, hkills.toKill, List.map_append, List.map_map, hmap, List.append_assoc,
      List.take_append_drop]
    exact h.order
  · have hle := h.atOnce
    omega
  · have hle := h.ready
    omega

theorem Counts.heard (h : Counts state a) (hheard : Heard a shown a') (hquiet : fails shown = false)
    (honce : a.toKill ≠ [] → Disjoint (notifies runSpec shown) a.readiness.both)
    (hstays : ∀ event, shown = .instanceChanged event → isGone runSpec event = true →
      event.id ∉ a.readiness.both) : Counts state a' := by
  cases hheard with
  | kept hkills hreadiness =>
    refine h.of_killsNext hkills ?_
    rw [hreadiness, List.take_zero]
    exact le_rfl
  | noted hkills hreadiness =>
    refine h.of_killsNext hkills ?_
    rw [hreadiness, List.take_zero]
    exact Finset.card_le_card (both_noted_subset _ _)
  | kills id hkills hreadiness hboth hnew =>
    refine h.of_killsNext hkills ?_
    have hsubset : a.readiness.both ⊆ a'.readiness.both :=
      hreadiness ▸ both_noted_subset a.readiness shown
    cases hempty : a.toKill with
    | nil => exact Finset.card_le_card hsubset
    | cons next rest =>
      -- the instance is one more that is healthy and ready
      have hnot : id ∉ a.readiness.both := by
        cases hnew with
        | inl hnotified =>
          exact Finset.disjoint_left.mp (honce (hempty ▸ List.cons_ne_nil next rest)) hnotified
        | inr hunhealthy => exact fun hmem => hunhealthy (Finset.mem_inter.mp hmem).1
      have hinsert : insert id a.readiness.both ⊆ a'.readiness.both :=
        Finset.insert_subset hboth hsubset
      have hcard := Finset.card_le_card hinsert
      rw [Finset.card_insert_of_notMem hnot] at hcard
      exact hcard
  | gone event hmessage hgone hkills hreadiness =>
    refine h.of_killsNext hkills ?_
    rw [hreadiness, both_instanceTerminated (hstays event hmessage hgone), List.take_zero]
    exact le_rfl
  | failed hfails =>
    rw [hquiet] at hfails
    cases hfails

theorem Counts.keepsPace (h : Counts state a) : KeepsPace state a := by
  have hnodup : (a.goals.map Prod.fst ++ a.toKill).Nodup := by
    rw [h.order]
    refine (state.perm.map Instance.instanceId).nodup_iff.mpr ?_
    exact state.distinct.sublist ((List.filter_sublist.trans List.filter_sublist).map _)
  have hold : Sightings.ids (oldActiveInstances runSpec state.specInstances) =
      (a.goals.map Prod.fst ++ a.toKill).toFinset := by
    rw [h.order, Sightings.ids]
    exact List.toFinset_eq_of_perm _ _ (state.perm.map Instance.instanceId).symm
  have hleft : (notToldToStop state a).card = a.toKill.length := by
    have hdisjoint : Disjoint a.toKill.toFinset (a.goals.map Prod.fst).toFinset :=
      List.disjoint_toFinset_iff_disjoint.mpr (List.disjoint_of_nodup_append hnodup).symm
    rw [notToldToStop, hold, List.toFinset_append, Finset.union_sdiff_left,
      Finset.sdiff_eq_self_of_disjoint hdisjoint,
      List.toFinset_card_of_nodup hnodup.of_append_right]
  have hlength : a.goals.length + a.toKill.length = state.toKillOrdered.length := by
    have heq := congrArg List.length h.order
    rw [List.length_append, List.length_map, List.length_map] at heq
    exact heq
  have hatOnce := h.atOnce
  have hready := h.ready
  refine ⟨?_, ?_, ?_⟩
  · unfold laterKills
    omega
  · rw [hleft]
    omega
  · rw [hleft]
    omega

/-! ## Undisturbed lives -/

theorem toKill_killOldInstances (a : TaskReplaceActor runSpec) (n : ℕ) :
    (a.killOldInstances n).toKill = a.toKill.drop n := by
  induction n generalizing a with
  | zero => rfl
  | succ n ih =>
    rw [killOldInstances, ih, toKill_killNextOldInstance, List.drop_drop, Nat.add_comm]

theorem state_killOldInstances (a : TaskReplaceActor runSpec) (n : ℕ) :
    (a.killOldInstances n).state = a.state := by
  induction n generalizing a with
  | zero => rfl
  | succ n ih => exact (ih _).trans (killsNext_killNextOldInstance a).state

theorem killsNext_loaded (a : TaskReplaceActor runSpec) (state : State runSpec) :
    KillsNext (a.setState state) (a.initializing (.loaded state))
      state.ignitionStrategy.nrToKillImmediately.toNat := by
  obtain ⟨healthy, ready, heq⟩ := reconcileAlreadyStartedInstances_eq (a.setState state) state
  unfold initializing
  dsimp only
  rw [heq]
  refine KillsNext.trans_zero ?_ (killsNext_checkFinished _)
  refine KillsNext.trans_zero ?_ (killsNext_launchInstances _)
  exact ⟨state_killOldInstances _ _, goals_killOldInstances _ _, toKill_killOldInstances _ _⟩

theorem counts_loaded (hgoals : a.goals = [])
    (hempty : a.readiness = .empty) : Counts state (a.initializing (.loaded state)) := by
  have hkills := killsNext_loaded a state
  have hids : (a.initializing (.loaded state)).goals.map Prod.fst =
      (state.toKillOrdered.map Instance.instanceId).take
        state.ignitionStrategy.nrToKillImmediately.toNat := by
    rw [hkills.goals, List.map_append, List.map_map]
    change a.goals.map Prod.fst ++ List.map id _ = _
    rw [hgoals, List.map_id]
    rfl
  have hlength : (a.initializing (.loaded state)).goals.length = immediateKills state := by
    rw [← List.length_map (f := Prod.fst), hids, ← List.map_take, List.length_map]
    rfl
  refine ⟨?_, hlength.ge, ?_⟩
  · rw [hids, hkills.toKill]
    exact List.take_append_drop _ _
  · rw [readiness_loaded, hempty, hlength]
    exact le_rfl

theorem killsNext_receive_of_eq_none (hbehavior : a.behavior = .initialized)
    (hshown : message.readiness = none) : KillsNext a (a.receive message) 0 := by
  unfold receive
  rw [hbehavior]
  rw [readinessBehavior_eq, hshown]
  cases message with
  | checkFinished => exact killsNext_checkFinished a
  | loaded state => exact .zero rfl rfl rfl
  | done => exact .zero rfl rfl rfl
  | failure => exact .zero rfl rfl rfl
  | _ => cases hshown

theorem killsNext_of_eq_none (hstep : a.step e = some a') (hloaded : a.loaded e = none)
    (hhandled : a.handled e = none) : KillsNext a a' 0 := by
  obtain ⟨message, unstashed, hnext, rfl, hbehavior, -⟩ := step_eq_some hstep
  cases hbehavior with
  | inl hinitializing =>
    unfold receive
    rw [hinitializing]
    cases message with
    | loaded state =>
      rw [loaded, if_pos hinitializing, hnext] at hloaded
      cases hloaded
    | _ => exact .zero rfl rfl rfl
  | inr hinitialized =>
    have hnone : message.readiness = none := by
      rw [handled, if_pos hinitialized, hnext, Option.bind_some] at hhandled
      exact hhandled
    have hkills := killsNext_receive_of_eq_none (a := { a with unstashed := unstashed })
      hinitialized hnone
    exact ⟨hkills.state, hkills.goals, hkills.toKill⟩

/-- Nothing is killed before the instances are loaded, and after that the kills count. -/
structure PaceInvariant (a : TaskReplaceActor runSpec) : Prop where
  reachable : (machine runSpec).Reachable a
  unloaded : a.state = none → a.goals = [] ∧ a.toKill = []
  counts : ∀ state, a.state = some state → Counts state a

theorem PaceInvariant.of_killsNext {n : ℕ} (h : PaceInvariant a)
    (hreachable : (machine runSpec).Reachable a') (hkills : KillsNext a a' n)
    (hcounts : ∀ state, Counts state a → Counts state a') : PaceInvariant a' where
  reachable := hreachable
  unloaded hnone := by
    obtain ⟨hgoals, htoKill⟩ := h.unloaded (hkills.state ▸ hnone)
    rw [hkills.goals, hkills.toKill, hgoals, htoKill]
    exact ⟨List.nil_append _ ▸ by rw [List.take_nil, List.map_nil], List.drop_nil⟩
  counts state hsome := hcounts state (h.counts state (hkills.state ▸ hsome))

theorem Heard.exists_killsNext (h : Heard a shown a')
    (hquiet : fails shown = false) : ∃ n, KillsNext a a' n := by
  cases h with
  | kept hkills => exact ⟨0, hkills⟩
  | noted hkills => exact ⟨0, hkills⟩
  | kills _ hkills => exact ⟨1, hkills⟩
  | gone _ _ _ hkills => exact ⟨0, hkills⟩
  | failed hfails =>
    rw [hquiet] at hfails
    cases hfails

theorem heard_of_handled (hstep : a.step e = some a')
    (hhandled : a.handled e = some shown) : Heard a shown a' := by
  obtain ⟨received, unstashed, hreadiness, hbehavior, rfl⟩ := receive_of_handled hstep hhandled
  have hheard := heard_receive (a := { a with unstashed := unstashed }) hbehavior hreadiness
  generalize { a with unstashed := unstashed }.receive received = a' at hheard
  cases hheard with
  | kept hkills hsets => exact .kept ⟨hkills.state, hkills.goals, hkills.toKill⟩ hsets
  | noted hkills hsets => exact .noted ⟨hkills.state, hkills.goals, hkills.toKill⟩ hsets
  | kills id hkills hsets hboth hnew =>
    exact .kills id ⟨hkills.state, hkills.goals, hkills.toKill⟩ hsets hboth hnew
  | gone event hmessage hgone hkills hsets =>
    exact .gone event hmessage hgone ⟨hkills.state, hkills.goals, hkills.toKill⟩ hsets
  | failed hfails => exact .failed hfails

theorem paceInvariant_step (h : PaceInvariant a) (hunrepeated : Unrepeated a e)
    (hstep : (undisturbed runSpec).step a e = some a') : PaceInvariant a' := by
  dsimp only [undisturbed] at hstep
  split_ifs at hstep with hquiet
  have hreachable : (machine runSpec).Reachable a' := .step h.reachable trivial hstep
  cases hloaded : a.loaded e with
  | some state =>
    obtain ⟨unstashed, rfl, hunloaded, hempty⟩ := step_of_loaded h.reachable hstep hloaded
    have hstate := (killsNext_loaded { a with unstashed := unstashed } state).state
    refine ⟨hreachable, fun hnone => ?_, fun state' hsome => ?_⟩
    · rw [hstate] at hnone
      cases hnone
    · rw [hstate] at hsome
      cases hsome
      exact counts_loaded (h.unloaded hunloaded).1 hempty
  | none =>
    cases hhandled : a.handled e with
    | none =>
      have hkills := killsNext_of_eq_none hstep hloaded hhandled
      refine h.of_killsNext hreachable hkills fun state hcounts => hcounts.of_killsNext hkills ?_
      rw [(keeps_of_eq_none hstep hloaded hhandled).1, List.take_zero]
      exact le_rfl
    | some shown =>
      have hheard := heard_of_handled hstep hhandled
      rw [hhandled, Option.any_some, Bool.not_eq_true] at hquiet
      obtain ⟨n, hkills⟩ := hheard.exists_killsNext hquiet
      refine h.of_killsNext hreachable hkills fun state hcounts => ?_
      exact hcounts.heard hheard hquiet (fun hleft => hunrepeated.once hleft shown hhandled)
        fun event heq => hunrepeated.stays event (heq ▸ hhandled)

theorem unrepeated_of_both_eq_empty (h : a.readiness.both = ∅) : Unrepeated a e where
  once _ _ _ := h ▸ Finset.disjoint_empty_right _
  stays _ _ _ := h ▸ Finset.notMem_empty _

/-- In a life without repeated notifications the kills keep pace with the instances. -/
theorem keepsPace_of_unrepeated (runSpec : RunSpec) (state : State runSpec)
    (a : TaskReplaceActor runSpec) (h : (undisturbed runSpec).ReachableIf Unrepeated a)
    (hstate : a.state = some state) : KeepsPace state a := by
  have hinvariant : PaceInvariant a := by
    refine h.invariant ?_ fun _ _ _ => paceInvariant_step
    intro a hinit
    obtain rfl : a = preStart runSpec := hinit
    exact ⟨.init rfl, fun _ => ⟨rfl, rfl⟩, fun _ hsome => nomatch hsome⟩
  exact (hinvariant.counts state hstate).keepsPace

end Marathon.Deployment.TaskReplaceActor

namespace Marathon.Deployment.TaskReplaceActor.Web

open Lib

/-! ## Two instances that are replaced by one -/

def pairSpec : RunSpec := .app { app ⟨1⟩ with instances := 2 }

theorem minHealthy_pairSpec : minHealthy pairSpec = 2 := by
  rw [minHealthy_eq]
  change ⌈((2 : ℤ) : ℚ) * 1⌉ = 2
  norm_num

theorem plainCapacity_pairSpec : plainCapacity pairSpec = 4 := by
  change toInt (((2 : ℤ) : ℚ) * (1 + 1)) = 4
  norm_num [toInt]

def oldPair : List Instance :=
  [instanceOf ⟨0⟩ 0 .running .running, instanceOf ⟨0⟩ 1 .running .running]

def pair : State pairSpec where
  specInstances := oldPair
  ignitionStrategy := ⟨0, 4⟩
  toKillOrdered := oldPair
  distinct := by decide
  computed := by
    have hhealthy : runningHealthy oldPair = oldPair := rfl
    have hlength : oldPair.length = 2 := rfl
    simp [computeRestartStrategy, computeNrToKill, computeMaxCapacity, isTight,
      minHealthy_pairSpec, plainCapacity_pairSpec, hhealthy, hlength,
      show pairSpec.instances = 2 from rfl]
  perm := .refl _
  ordered := by decide

/-- The first of the new instances runs. -/
def newRunning : Event pairSpec :=
  .received (.instanceChanged (instanceChangedOf (instanceOf ⟨1⟩ 2 .running .running)))

def replacing : List (Event pairSpec) := [.received (.loaded pair), .received .done, newRunning]

theorem exists_keepsPace : ∃ (state : State pairSpec) (a : TaskReplaceActor pairSpec),
    laterKills state a = 1 ∧ KeepsPace state a := by
  have hrun : ((undisturbed pairSpec).runIf (fun a _ => a.readiness.both = ∅) (preStart pairSpec)
      replacing).any (fun a => a.state.any fun state => decide (laterKills state a = 1)) = true := by
    decide +kernel
  obtain ⟨a, hr, htest⟩ := Machine.exists_of_any hrun
  obtain ⟨state, hstate, hkills⟩ := Machine.exists_of_any htest
  have hreachable : (undisturbed pairSpec).ReachableIf Unrepeated a :=
    (Machine.reachableIf_of_runIf replacing (.init rfl) hr).mono
      fun _ _ => unrepeated_of_both_eq_empty
  exact ⟨state, a, of_decide_eq_true hkills, keepsPace_of_unrepeated pairSpec state a hreachable hstate⟩

theorem not_forall_keepsPace :
    ¬∀ (runSpec : RunSpec) (state : State runSpec) (a : TaskReplaceActor runSpec),
      (undisturbed runSpec).Reachable a → a.state = some state → KeepsPace state a := by
  intro h
  have hrun : ((undisturbed pairSpec).run (preStart pairSpec) (replacing ++ [newRunning])).any
      (fun a => a.state.any fun state =>
        decide (¬laterKills state a ≤ a.readiness.both.card)) = true := by
    decide +kernel
  obtain ⟨a, hr, htest⟩ := Machine.exists_of_any hrun
  obtain ⟨state, hstate, hkills⟩ := Machine.exists_of_any htest
  have hreachable : (undisturbed pairSpec).Reachable a :=
    Machine.reachableIf_of_runIf (replacing ++ [newRunning]) (.init rfl) hr
  exact of_decide_eq_true hkills (h pairSpec state a hreachable hstate).kills

end Marathon.Deployment.TaskReplaceActor.Web
