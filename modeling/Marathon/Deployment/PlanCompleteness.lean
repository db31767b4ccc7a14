import Marathon.Deployment.DeploymentPlan
import Marathon.Group.GroupVersioningUtil
import Marathon.Instance.LiveTasks

/-!
# What a deployment plan acts upon

A plan stops what is gone, starts and scales what is new, and scales what has another
number of instances. What is defined differently is restarted only if the difference is
one that `isUpgrade` looks at, or if its version is another one.
-/

namespace Marathon.Deployment

open Lib GroupVersioningUtil

/-- The plan does everything that leads from the one root group to the other. -/
structure DeploymentPlan.Complete (plan : DeploymentPlan) (original target : RootGroup)
    (toKill : Dict AbsolutePathId (List Instance)) : Prop where
  stops : ∀ spec, (∃ n, plan.At n (.stopApplication spec)) ↔
    spec ∈ original.transitiveRunSpecs ∧ ∀ t ∈ target.transitiveRunSpecs, t.id ≠ spec.id
  starts : ∀ spec, (∃ n, plan.At n (.startApplication spec)) ↔
    spec ∈ target.transitiveRunSpecs ∧ ∀ s ∈ original.transitiveRunSpecs, s.id ≠ spec.id
  startsScaled : ∀ spec m, plan.At m (.startApplication spec) →
    ∃ n, m < n ∧ plan.At n (.scaleApplication spec spec.instances [])
  restarts : ∀ oldSpec ∈ original.transitiveRunSpecs, ∀ newSpec ∈ target.transitiveRunSpecs,
    oldSpec.id = newSpec.id → oldSpec.runtime ≠ newSpec.runtime →
      if newSpec.isScaledToZero then ∃ n kills, plan.At n (.scaleApplication newSpec 0 kills)
      else ∃ n, plan.At n (.restartApplication newSpec)
  scales : ∀ oldSpec ∈ original.transitiveRunSpecs, ∀ newSpec ∈ target.transitiveRunSpecs,
    oldSpec.id = newSpec.id → oldSpec.runtime = newSpec.runtime →
      oldSpec.versionInfo = newSpec.versionInfo → oldSpec.instances ≠ newSpec.instances →
        ∃ n, plan.At n (.scaleApplication newSpec newSpec.instances
          ((toKill.lookup newSpec.id).getD []))
  unchanged : ∀ spec ∈ original.transitiveRunSpecs, spec ∈ target.transitiveRunSpecs →
    ∀ n a, plan.At n a → a.runSpec.id ≠ spec.id

namespace DeploymentPlan

variable {original target : RootGroup} {toKill : Dict AbsolutePathId (List Instance)}
  {version : Timestamp} {id : Option String} {uuid : String} {plan : DeploymentPlan}

theorem exists_at_iff (h : apply original target toKill version id uuid = .ok plan)
    {a : DeploymentAction} :
    (∃ n, plan.At n a) ↔ ∃ rank, Prescribes original target toKill rank a :=
  ⟨fun ⟨_, ha⟩ => exists_rank h ha, fun ⟨_, ha⟩ => exists_at h ha⟩

theorem containsRunSpec_eq_false {root : RootGroup} (hv : root.ValidRoot) {id : AbsolutePathId} :
    root.containsRunSpec id = false ↔ ∀ spec ∈ root.transitiveRunSpecs, spec.id ≠ id := by
  rw [← Bool.not_eq_true, hv.containsRunSpec_iff]
  push Not
  rfl

theorem exists_at_scaleOrRestart (hv : target.ValidRoot) (hacyclic : target.dependencyGraph.Acyclic)
    (h : apply original target toKill version id uuid = .ok plan) {a : DeploymentAction}
    (ha : a.isScaleOrRestart = true) :
    (∃ n, plan.At n a) ↔ a.runSpec ∈ target.transitiveRunSpecs ∧
      original.runSpec a.runSpec.id ≠ some a.runSpec ∧
        actionFor original toKill a.runSpec = .ok (some a) := by
  rw [exists_at_iff h]
  constructor
  · rintro ⟨rank, hrank⟩
    obtain ⟨hmem, hid, -, haction⟩ := (prescribes_of_isScaleOrRestart ha).mp hrank
    exact ⟨hmem, (mem_affectedApplications hv hmem).mp hid, haction⟩
  · rintro ⟨hmem, hne, haction⟩
    obtain ⟨path, hpath⟩ := DirectedGraph.exists_longestPathFromVertex hacyclic
      (Nat.lt_succ_self _) a.runSpec
    exact ⟨_, (prescribes_of_isScaleOrRestart ha).mpr
      ⟨hmem, (mem_affectedApplications hv hmem).mpr hne, ⟨path, hpath, rfl⟩, haction⟩⟩

theorem actionFor_of_none {spec : RunSpec} (h : original.runSpec spec.id = none) :
    actionFor original toKill spec = .ok (some (.scaleApplication spec spec.instances [])) := by
  rw [actionFor, h]

theorem actionFor_of_some {oldSpec newSpec : RunSpec} {upgrade : Bool}
    (hold : original.runSpec newSpec.id = some oldSpec)
    (hupgrade : oldSpec.isUpgrade newSpec = .ok upgrade) :
    actionFor original toKill newSpec = .ok
      (if (!upgrade && oldSpec.instances != newSpec.instances) || newSpec.isScaledToZero then
        some (.scaleApplication newSpec newSpec.instances ((toKill.lookup newSpec.id).getD []))
      else if oldSpec.versionDiffers newSpec || upgrade then some (.restartApplication newSpec)
      else none) := by
  rw [actionFor, hold]
  dsimp only
  rw [RunSpec.isOnlyScaleChange_eq hupgrade, RunSpec.needsRestart_eq hupgrade]
  dsimp only [bind, Except.bind]
  split
  · rfl
  · split <;> rfl

/-- A restart is seen to be needed: a compared field differs, or with as many instances as
before the version. -/
def SeesRestart (oldSpec newSpec : RunSpec) : Prop :=
  oldSpec.isUpgrade newSpec = .ok true ∨
    oldSpec.instances = newSpec.instances ∧ oldSpec.versionDiffers newSpec = true

theorem exists_at_restart_iff (hv : original.ValidRoot) (hv' : target.ValidRoot)
    (hacyclic : target.dependencyGraph.Acyclic) (hkinds : SameKinds original target)
    (h : apply original target toKill version id uuid = .ok plan) {oldSpec newSpec : RunSpec}
    (hold : oldSpec ∈ original.transitiveRunSpecs) (hnew : newSpec ∈ target.transitiveRunSpecs)
    (hid : oldSpec.id = newSpec.id) (hne : oldSpec.runtime ≠ newSpec.runtime) :
    (if newSpec.isScaledToZero then ∃ n kills, plan.At n (.scaleApplication newSpec 0 kills)
      else ∃ n, plan.At n (.restartApplication newSpec)) ↔
        newSpec.isScaledToZero = true ∨ SeesRestart oldSpec newSpec := by
  have hfound : original.runSpec newSpec.id = some oldSpec := hv.runSpec_eq_some.mpr ⟨hold, hid⟩
  have hchanged : original.runSpec newSpec.id ≠ some newSpec := by
    rw [hfound]
    rintro heq
    cases heq
    exact hne rfl
  obtain ⟨upgrade, hupgrade⟩ := RunSpec.exists_isUpgrade (hkinds oldSpec hold newSpec hnew hid)
  have haction := @actionFor_of_some _ toKill _ _ _ hfound hupgrade
  by_cases hzero : newSpec.isScaledToZero = true
  · rw [if_pos hzero]
    refine iff_of_true ?_ (.inl hzero)
    have hinstances : newSpec.instances = 0 := of_decide_eq_true hzero
    have hscale : ∃ n, plan.At n (.scaleApplication newSpec newSpec.instances
        ((toKill.lookup newSpec.id).getD [])) :=
      (exists_at_scaleOrRestart hv' hacyclic h rfl).mpr
        ⟨hnew, hchanged, by rw [DeploymentAction.runSpec, haction, hzero, Bool.or_true, if_pos rfl]⟩
    obtain ⟨n, hn⟩ := hscale
    rw [hinstances] at hn
    exact ⟨n, _, hn⟩
  · rw [if_neg hzero, exists_at_scaleOrRestart hv' hacyclic h rfl, DeploymentAction.runSpec, haction,
      Bool.eq_false_iff.mpr hzero, SeesRestart, hupgrade]
    cases upgrade with
    | true => simp [hnew, hchanged]
    | false =>
      by_cases hinstances : oldSpec.instances = newSpec.instances
      · cases hversion : oldSpec.versionDiffers newSpec with
        | true => simp [hnew, hchanged, hinstances]
        | false => simp
      · simp [hinstances]

/-! ## What a plan contains -/

/-- The plan does everything that leads to the target just in case what is defined
differently, and is not scaled to zero, is seen to need a restart. -/
theorem complete_iff (version : Timestamp) (id : Option String) (uuid : String)
    (hv : original.ValidRoot) (hv' : target.ValidRoot)
    (hacyclic : target.dependencyGraph.Acyclic) (hkinds : SameKinds original target) :
    ∃ plan, apply original target toKill version id uuid = .ok plan ∧
      (plan.Complete original target toKill ↔
        ∀ oldSpec ∈ original.transitiveRunSpecs, ∀ newSpec ∈ target.transitiveRunSpecs,
          oldSpec.id = newSpec.id → oldSpec.runtime ≠ newSpec.runtime →
            newSpec.isScaledToZero = true ∨ SeesRestart oldSpec newSpec) := by
  obtain ⟨plan, h⟩ := @exists_plan _ _ toKill hkinds hacyclic version id uuid
  refine ⟨plan, h, fun hc oldSpec hold newSpec hnew hid hne => ?_, fun hcond => ?_⟩
  · exact (exists_at_restart_iff hv hv' hacyclic hkinds h hold hnew hid hne).mp
      (hc.restarts oldSpec hold newSpec hnew hid hne)
  constructor
  · -- stops
    intro spec
    rw [exists_at_iff h]
    constructor
    · rintro ⟨rank, -, hmem, hgone⟩
      exact ⟨hmem, (containsRunSpec_eq_false hv').mp hgone⟩
    · rintro ⟨hmem, hgone⟩
      exact ⟨0, rfl, hmem, (containsRunSpec_eq_false hv').mpr hgone⟩
  · -- starts
    intro spec
    rw [exists_at_iff h]
    constructor
    · rintro ⟨rank, -, hmem, hnew⟩
      exact ⟨hmem, (containsRunSpec_eq_false hv).mp hnew⟩
    · rintro ⟨hmem, hnew⟩
      exact ⟨1, rfl, hmem, (containsRunSpec_eq_false hv).mpr hnew⟩
  · -- what is started is scaled in a later step
    intro spec m hm
    obtain ⟨rank, hrank⟩ := exists_rank h hm
    have hnone : original.runSpec spec.id = none := by
      have hnew := hrank.2.2
      rw [Group.containsRunSpec, Option.isSome_eq_false_iff, Option.isNone_iff_eq_none] at hnew
      exact hnew
    have hscale : ∃ n, plan.At n (.scaleApplication spec spec.instances []) := by
      apply (exists_at_scaleOrRestart hv' hacyclic h rfl).mpr
      refine ⟨hrank.2.1, ?_, actionFor_of_none hnone⟩
      rw [DeploymentAction.runSpec, hnone]
      exact (Option.some_ne_none spec).symm
    obtain ⟨n, hn⟩ := hscale
    obtain ⟨rank', hrank'⟩ := exists_rank h hn
    refine ⟨n, (at_lt_iff h hm hn hrank hrank').mpr ?_, hn⟩
    rw [rank_of_isStart rfl hrank]
    exact one_lt_rank rfl hrank'
  · exact fun oldSpec hold newSpec hnew hid hne =>
      (exists_at_restart_iff hv hv' hacyclic hkinds h hold hnew hid hne).mpr
        (hcond oldSpec hold newSpec hnew hid hne)
  · -- another number of instances
    intro oldSpec hold newSpec hnew hid hruntime hversion hinstances
    have hfound : original.runSpec newSpec.id = some oldSpec := hv.runSpec_eq_some.mpr ⟨hold, hid⟩
    apply (exists_at_scaleOrRestart hv' hacyclic h rfl).mpr
    refine ⟨hnew, ?_, ?_⟩
    · rw [DeploymentAction.runSpec, hfound]
      intro heq
      exact hinstances (congrArg RunSpec.instances (Option.some.inj heq))
    · rw [DeploymentAction.runSpec,
        actionFor_of_some hfound (RunSpec.isUpgrade_of_runtime_eq hruntime)]
      simp [hinstances]
  · -- nothing is done about what stays as it is
    intro spec hold hnew n a ha hid
    have hfound : original.runSpec spec.id = some spec := hv.runSpec_eq_some.mpr ⟨hold, rfl⟩
    obtain ⟨rank, hrank⟩ := exists_rank h ha
    cases a with
    | stopApplication gone =>
      exact (containsRunSpec_eq_false hv').mp hrank.2.2 spec hnew hid.symm
    | startApplication new =>
      exact (containsRunSpec_eq_false hv).mp hrank.2.2 spec hold hid.symm
    | scaleApplication changed scaleTo kills =>
      have hne := ((exists_at_scaleOrRestart hv' hacyclic h rfl).mp ⟨n, ha⟩).2.1
      obtain rfl := hv'.runSpec_unique hrank.1 hnew hid
      exact hne hfound
    | restartApplication changed =>
      have hne := ((exists_at_scaleOrRestart hv' hacyclic h rfl).mp ⟨n, ha⟩).2.1
      obtain rfl := hv'.runSpec_unique hrank.1 hnew hid
      exact hne hfound

end DeploymentPlan

/-! ## A pod that changes -/

namespace ChangedPod

def shop : PodDefinition := plainPod ⟨["web", "shop"]⟩ ["shop"]

/-- The root group with one pod. -/
def rootOf (pod : PodDefinition) : RootGroup := plainRoot [plainGroup ⟨["web"]⟩ [] [pod] ∅]

/-- The pod run by another user. -/
def renamed : PodDefinition := { shop with user := some "www" }

/-- The pod with more resources for its executor. -/
def enlarged : PodDefinition := { shop with executorResources := ⟨1, 32, 10, 0⟩ }

theorem validRoot_shop : (rootOf shop).ValidRoot :=
  Group.validRoot_plainRoot (by decide) (by decide) (by decide) (by decide)

theorem validRoot_renamed : (rootOf renamed).ValidRoot :=
  Group.validRoot_plainRoot (by decide) (by decide) (by decide) (by decide)

theorem validRoot_enlarged : (rootOf enlarged).ValidRoot :=
  Group.validRoot_plainRoot (by decide) (by decide) (by decide) (by decide)

theorem acyclic_rootOf {pod : PodDefinition} (h : (rootOf pod).dependencyGraph.edgeSet = []) :
    (rootOf pod).dependencyGraph.Acyclic := by
  apply DirectedGraph.acyclic_of_rank fun _ => 0
  rw [h]
  exact List.forall_mem_nil _

theorem sameKinds_renamed : DeploymentPlan.SameKinds (rootOf shop) (rootOf renamed) := by
  intro oldSpec hold newSpec hnew _
  obtain rfl := List.mem_singleton.mp hold
  obtain rfl := List.mem_singleton.mp hnew
  rfl

theorem sameKinds_enlarged : DeploymentPlan.SameKinds (rootOf shop) (rootOf enlarged) := by
  intro oldSpec hold newSpec hnew _
  obtain rfl := List.mem_singleton.mp hold
  obtain rfl := List.mem_singleton.mp hnew
  rfl

end ChangedPod

open ChangedPod in
theorem complete_renamed : ∃ plan,
    DeploymentPlan.apply (rootOf shop) (rootOf renamed) ∅ ⟨0⟩ none "id" = .ok plan ∧
      plan.Complete (rootOf shop) (rootOf renamed) ∅ := by
  obtain ⟨plan, hplan, hiff⟩ := @DeploymentPlan.complete_iff _ _ ∅ ⟨0⟩ none "id" validRoot_shop
    validRoot_renamed (acyclic_rootOf rfl) sameKinds_renamed
  refine ⟨plan, hplan, hiff.mpr ?_⟩
  intro oldSpec hold newSpec hnew _ _
  obtain rfl := List.mem_singleton.mp hold
  obtain rfl := List.mem_singleton.mp hnew
  exact .inr (.inl rfl)

open ChangedPod in
/-- Not every plan is complete: nothing is done about a pod whose executor gets other
resources. -/
theorem not_forall_complete : ¬ ∀ (original target : RootGroup)
    (toKill : Dict AbsolutePathId (List Instance)) (version : Timestamp) (id : Option String)
    (uuid : String), original.ValidRoot → target.ValidRoot → target.dependencyGraph.Acyclic →
      DeploymentPlan.SameKinds original target →
        ∃ plan, DeploymentPlan.apply original target toKill version id uuid = .ok plan ∧
          plan.Complete original target toKill := by
  intro hall
  have hacyclic := @acyclic_rootOf enlarged rfl
  obtain ⟨plan, hplan, hcomplete⟩ := hall _ _ ∅ ⟨0⟩ none "id" validRoot_shop validRoot_enlarged
    hacyclic sameKinds_enlarged
  have hold : .pod shop ∈ (rootOf shop).transitiveRunSpecs := List.mem_singleton_self _
  have hnew : .pod enlarged ∈ (rootOf enlarged).transitiveRunSpecs := List.mem_singleton_self _
  have hne : (RunSpec.pod shop).runtime ≠ (RunSpec.pod enlarged).runtime := by
    intro heq
    have hsame := congrArg PodDefinition.executorResources (RunSpec.pod.inj heq)
    exact absurd hsame (by decide)
  have hrestart := hcomplete.restarts _ hold _ hnew rfl hne
  rcases (DeploymentPlan.exists_at_restart_iff validRoot_shop validRoot_enlarged hacyclic
    sameKinds_enlarged hplan hold hnew rfl hne).mp hrestart with hzero | hupgrade | ⟨-, hversion⟩
  · exact absurd hzero (by decide)
  · have hfalse : shop.isUpgrade enlarged = false :=
      (PodDefinition.isUpgrade_eq_false_iff rfl).mpr rfl
    rw [RunSpec.isUpgrade, hfalse] at hupgrade
    cases hupgrade
  · exact absurd hversion (by decide)

end Marathon.Deployment
