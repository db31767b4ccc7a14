import Marathon.Deployment.TaskReplaceActor
import Marathon.State.RootGroup

/-!
# The immediate kills of a replacement

When the actor has loaded the instances it kills some old ones at once, unhealthy ones first.
The surplus of healthy instances over the minimum may go. But all instances that exist are
counted when more of them are found than are wanted, those too that are being killed already
or are not healthy, and then healthy ones have to go for the others.
-/

namespace Marathon.Deployment.TaskReplaceActor

open Lib

variable {runSpec : RunSpec}

/-! ## What is killed -/

theorem goals_killNextOldInstance (a : TaskReplaceActor runSpec) :
    a.killNextOldInstance.goals =
      a.goals ++ (a.toKill.take 1).map fun id => (id, killGoal runSpec) := by
  unfold killNextOldInstance
  split
  · rename_i h
    simp [h]
  · rename_i dequeued toKill h
    simp [h]

theorem toKill_killNextOldInstance (a : TaskReplaceActor runSpec) :
    a.killNextOldInstance.toKill = a.toKill.drop 1 := by
  unfold killNextOldInstance
  split
  · rename_i h
    rw [h]
    rfl
  · rename_i dequeued toKill h
    rw [h]
    rfl

theorem goals_killOldInstances (a : TaskReplaceActor runSpec) (n : ℕ) :
    (a.killOldInstances n).goals =
      a.goals ++ (a.toKill.take n).map fun id => (id, killGoal runSpec) := by
  induction n generalizing a with
  | zero => simp [killOldInstances]
  | succ n ih =>
    rw [killOldInstances, ih, goals_killNextOldInstance, toKill_killNextOldInstance,
      List.append_assoc, ← List.map_append, Nat.add_comm n 1, List.take_add]

theorem goals_launchInstances (a : TaskReplaceActor runSpec) : a.launchInstances.goals = a.goals := by
  unfold launchInstances
  split <;> rfl

theorem goals_checkFinished (a : TaskReplaceActor runSpec) : a.checkFinished.goals = a.goals := by
  unfold checkFinished
  split <;> rfl

/-- Looking at the instances that are started already changes nothing but what is known of
their health. -/
theorem reconcileAlreadyStartedInstances_eq (a : TaskReplaceActor runSpec) (state : State runSpec) :
    ∃ healthy ready, a.reconcileAlreadyStartedInstances state =
      { a with healthy := healthy, ready := ready } := by
  unfold reconcileAlreadyStartedInstances
  induction state.instancesAlreadyStarted generalizing a with
  | nil => exact ⟨a.healthy, a.ready, rfl⟩
  | cons i instances ih => exact ih (a.reconcileHealthAndReadinessCheck i)

theorem goals_loaded (state : State runSpec) :
    ((preStart runSpec).receive (.loaded state)).goals =
      (state.toKillOrdered.take state.ignitionStrategy.nrToKillImmediately.toNat).map
        fun i => (i.instanceId, killGoal runSpec) := by
  obtain ⟨healthy, ready, heq⟩ :=
    reconcileAlreadyStartedInstances_eq ((preStart runSpec).setState state) state
  have hreceive : (preStart runSpec).receive (.loaded state) =
      (((((preStart runSpec).setState state).reconcileAlreadyStartedInstances
        state).killOldInstances
          state.ignitionStrategy.nrToKillImmediately.toNat).launchInstances).checkFinished := rfl
  rw [hreceive, goals_checkFinished, goals_launchInstances, heq, goals_killOldInstances]
  simp only [preStart, setState, List.nil_append, List.map_take, List.map_map]
  rfl

/-! ## What is left -/

/-- The healthy instances whose goal is still to be running. -/
def healthyLeft (a : TaskReplaceActor runSpec) (state : State runSpec) : List Instance :=
  (runningHealthy state.specInstances).filter fun i => i.instanceId ∉ a.goals.map Prod.fst

/-- The immediate kills leave the minimum of healthy instances, as far as they were there. -/
def KeepsMinimumHealth (state : State runSpec) : Prop :=
  min ⌈(runSpec.instances : ℚ) * runSpec.upgradeStrategy.minimumHealthCapacity⌉
      (runningHealthy state.specInstances).length ≤
    (healthyLeft ((preStart runSpec).receive (.loaded state)) state).length

/-- The old instances with the goal to be running that are considered healthy. -/
def oldHealthy (state : State runSpec) : ℕ :=
  (oldActiveInstances runSpec state.specInstances).countP fun i => i.consideredHealthy

def oldUnhealthy (state : State runSpec) : ℕ :=
  (oldActiveInstances runSpec state.specInstances).countP fun i => !i.consideredHealthy

theorem mem_oldActiveInstances {instances : List Instance} {i : Instance} :
    i ∈ oldActiveInstances runSpec instances ↔
      i ∈ instances ∧ i.runSpecVersion ≠ runSpec.version ∧ i.state.goal = .running := by
  simp only [oldActiveInstances, List.mem_filter, decide_eq_true_eq, and_assoc]

theorem mem_runningHealthy {instances : List Instance} {i : Instance} :
    i ∈ runningHealthy instances ↔
      i ∈ instances ∧ i.state.goal = .running ∧ i.consideredHealthy = true := by
  rw [runningHealthy, List.mem_filter, Bool.and_eq_true, decide_eq_true_eq]

theorem length_healthyLeft (state : State runSpec) :
    (healthyLeft ((preStart runSpec).receive (.loaded state)) state).length +
        (state.toKillOrdered.take state.ignitionStrategy.nrToKillImmediately.toNat).countP
          (fun i => i.consideredHealthy) =
      (runningHealthy state.specInstances).length := by
  let killed := state.toKillOrdered.take state.ignitionStrategy.nrToKillImmediately.toNat
  have hspec : state.specInstances.Nodup := List.Nodup.of_map _ state.distinct
  have hrunning : (runningHealthy state.specInstances).Nodup := hspec.filter _
  have hkilled : killed.Nodup := by
    have hold : (oldActiveInstances runSpec state.specInstances).Nodup :=
      (hspec.filter _).filter _
    exact (state.perm.nodup_iff.mpr hold).sublist (List.take_sublist _ _)
  have hsubset : ∀ i ∈ killed, i ∈ state.specInstances ∧ i.state.goal = .running := by
    intro i hi
    obtain ⟨hmem, -, hgoal⟩ :=
      mem_oldActiveInstances.mp (state.perm.mem_iff.mp (List.mem_of_mem_take hi))
    exact ⟨hmem, hgoal⟩
  have hids : ((preStart runSpec).receive (.loaded state)).goals.map Prod.fst =
      killed.map Instance.instanceId := by
    rw [goals_loaded, List.map_map]
    rfl
  have hmem : ∀ i ∈ state.specInstances,
      i.instanceId ∈ killed.map Instance.instanceId ↔ i ∈ killed := by
    intro i hi
    constructor
    · intro h
      obtain ⟨j, hj, hid⟩ := List.mem_map.mp h
      obtain rfl := List.inj_on_of_nodup_map state.distinct (hsubset j hj).1 hi hid
      exact hj
    · exact List.mem_map_of_mem
  have hperm : ((runningHealthy state.specInstances).filter
      fun i => i.instanceId ∈ killed.map Instance.instanceId).Perm
        (killed.filter fun i => i.consideredHealthy) := by
    refine (List.perm_ext_iff_of_nodup (hrunning.filter _) (hkilled.filter _)).mpr ?_
    intro i
    rw [List.mem_filter, mem_runningHealthy, List.mem_filter, decide_eq_true_eq]
    constructor
    · rintro ⟨⟨hi, -, hhealthy⟩, hid⟩
      exact ⟨(hmem i hi).mp hid, hhealthy⟩
    · rintro ⟨hi, hhealthy⟩
      obtain ⟨hspec, hgoal⟩ := hsubset i hi
      exact ⟨⟨hspec, hgoal, hhealthy⟩, (hmem i hspec).mpr hi⟩
  have hsplit := List.length_eq_length_filter_add (l := runningHealthy state.specInstances)
    fun i => i.instanceId ∈ killed.map Instance.instanceId
  rw [hperm.length_eq] at hsplit
  rw [healthyLeft, hids, List.countP_eq_length_filter, hsplit, Nat.add_comm]
  simp [killed]

theorem countP_killed (state : State runSpec) :
    (state.toKillOrdered.take state.ignitionStrategy.nrToKillImmediately.toNat).countP
        (fun i => i.consideredHealthy) =
      min (oldHealthy state)
        (state.ignitionStrategy.nrToKillImmediately.toNat - oldUnhealthy state) := by
  rw [countP_take_of_pairwise state.ordered, state.perm.countP_eq, state.perm.countP_eq]
  rfl

/-- The minimum is kept just in case there are no more instances than wanted, or the old
unhealthy ones and the surplus of healthy ones can make up for those that are too many. -/
theorem keepsMinimumHealth_iff (hresident : runSpec.isResident = false) (state : State runSpec) :
    KeepsMinimumHealth state ↔
      state.specInstances.length ≤ runSpec.instances ∨
        min (oldHealthy state : ℤ)
            (state.specInstances.length - runSpec.instances - oldUnhealthy state) ≤
          max 0 ((runningHealthy state.specInstances).length -
            ⌈(runSpec.instances : ℚ) * runSpec.upgradeStrategy.minimumHealthCapacity⌉) := by
  obtain ⟨-, hpos, hkill, -⟩ := computeRestartStrategy_eq_ok state.computed
  have hleft := length_healthyLeft state
  rw [countP_killed] at hleft
  rw [computeNrToKill, hresident, Bool.and_false, minHealthy_eq] at hkill
  rw [KeepsMinimumHealth]
  simp only [Bool.false_eq_true, if_false] at hkill
  split_ifs at hkill <;> omega

end Marathon.Deployment.TaskReplaceActor

namespace Marathon.Deployment.TaskReplaceActor.Web

/-! ## One instance beside another that is being killed -/

def app (version : Timestamp) : AppDefinition :=
  { plainApp ⟨["web"]⟩ ∅ with versionInfo := .onlyVersion version }

def runSpec : RunSpec := .app (app ⟨1⟩)

def instanceOf (version : Timestamp) (uuid : ℕ) (condition : Condition) (goal : Goal) : Instance :=
  { Instance.scheduled (.app (app version)) ⟨⟨["web"]⟩, .instance, ⟨uuid⟩⟩ ⟨0⟩ with
    state := ⟨condition, ⟨0⟩, none, none, goal⟩ }

def runningInstance : Instance := instanceOf ⟨0⟩ 0 .running .running

/-- A former deployment has decommissioned it. -/
def killingInstance : Instance := instanceOf ⟨0⟩ 1 .killing .decommissioned

theorem minHealthy_runSpec : minHealthy runSpec = 1 := by
  rw [minHealthy_eq]
  change ⌈((1 : ℤ) : ℚ) * 1⌉ = 1
  norm_num

theorem plainCapacity_runSpec : plainCapacity runSpec = 2 := by
  change toInt (((1 : ℤ) : ℚ) * (1 + 1)) = 2
  norm_num [toInt]

theorem validUpgradeStrategy_runSpec : ValidUpgradeStrategy runSpec.upgradeStrategy := by
  change (0 : ℚ) ≤ 1 ∧ (1 : ℚ) ≤ 1 ∧ (0 : ℚ) ≤ 1 ∧ (1 : ℚ) ≤ 1
  norm_num

theorem pairwise_runningInstance :
    [runningInstance].Pairwise fun i j => i.consideredHealthy → j.consideredHealthy :=
  List.pairwise_singleton _ _

/-- The only instance is not killed as long as there is no new one. -/
def alone : State runSpec where
  specInstances := [runningInstance]
  ignitionStrategy := ⟨0, 2⟩
  toKillOrdered := [runningInstance]
  distinct := by decide
  computed := by
    have hhealthy : runningHealthy [runningInstance] = [runningInstance] := rfl
    simp [computeRestartStrategy, computeNrToKill, computeMaxCapacity, isTight, minHealthy_runSpec,
      plainCapacity_runSpec, hhealthy, show runSpec.instances = 1 from rfl]
  perm := .refl _
  ordered := pairwise_runningInstance

/-- There are two instances where one is wanted: the one that runs is killed for the one that
is being killed. -/
def overtaken : State runSpec where
  specInstances := [runningInstance, killingInstance]
  ignitionStrategy := ⟨1, 2⟩
  toKillOrdered := [runningInstance]
  distinct := by decide
  computed := by
    have hhealthy : runningHealthy [runningInstance, killingInstance] = [runningInstance] := rfl
    simp [computeRestartStrategy, computeNrToKill, computeMaxCapacity, isTight, minHealthy_runSpec,
      plainCapacity_runSpec, hhealthy, show runSpec.instances = 1 from rfl]
  perm := .refl _
  ordered := pairwise_runningInstance

theorem keepsMinimumHealth_alone : KeepsMinimumHealth alone :=
  (keepsMinimumHealth_iff rfl alone).mpr (.inl (by decide))

theorem not_forall_keepsMinimumHealth :
    ¬∀ (runSpec : RunSpec) (state : State runSpec), 0 < runSpec.instances →
      ValidUpgradeStrategy runSpec.upgradeStrategy → runSpec.isResident = false →
        KeepsMinimumHealth state := by
  intro h
  have hkept := h runSpec overtaken (by decide) validUpgradeStrategy_runSpec rfl
  have hleft : healthyLeft ((preStart runSpec).receive (.loaded overtaken)) overtaken = [] := by
    rw [healthyLeft, goals_loaded]
    rfl
  rw [KeepsMinimumHealth, hleft, ← minHealthy_eq, minHealthy_runSpec] at hkept
  exact absurd hkept (by decide)

end Marathon.Deployment.TaskReplaceActor.Web
