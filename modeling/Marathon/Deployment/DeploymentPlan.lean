import Mathlib.Data.List.ReduceOption
import Marathon.Instance.Instance
import Marathon.Lib.Future
import Marathon.State.DependencyGraph

/-!
# Deployment plans

The plan from one root group to another: run specs that are gone are stopped, new ones
are started, and then all that are new or changed are scaled or restarted, in the order
of the longest path that leads from them through the dependency graph of the target.
-/

namespace Marathon.Deployment

open Lib

inductive DeploymentAction
  | startApplication (runSpec : RunSpec)
  | scaleApplication (runSpec : RunSpec) (scaleTo : ℤ) (sentencedToDeath : List Instance)
  | stopApplication (runSpec : RunSpec)
  | restartApplication (runSpec : RunSpec)

namespace DeploymentAction

def runSpec : DeploymentAction → RunSpec
  | startApplication runSpec => runSpec
  | scaleApplication runSpec _ _ => runSpec
  | stopApplication runSpec => runSpec
  | restartApplication runSpec => runSpec

def isStop : DeploymentAction → Bool
  | stopApplication _ => true
  | _ => false

def isStart : DeploymentAction → Bool
  | startApplication _ => true
  | _ => false

def isScaleOrRestart : DeploymentAction → Bool
  | scaleApplication .. => true
  | restartApplication _ => true
  | _ => false

end DeploymentAction

/-- The actions of a step may be executed in parallel. -/
structure DeploymentStep where
  actions : List DeploymentAction

structure DeploymentPlan where
  id : String
  original : RootGroup
  target : RootGroup
  steps : List DeploymentStep
  version : Timestamp

/-- Why there is no plan: the search for longest paths does not end, or an app is
compared with a pod. -/
inductive PlanningFailure
  | stackOverflowError
  | illegalStateException (e : IllegalStateException)

variable {rank n : ℕ} {ids : Finset AbsolutePathId}

namespace DeploymentPlan

/-- The longest path from a run spec; a search deeper than the number of vertices does not
end. -/
def longestPathFrom (rootGroup : RootGroup) (runSpec : RunSpec) : Option (List RunSpec) :=
  rootGroup.dependencyGraph.longestPathFromVertex
    (rootGroup.dependencyGraph.vertexSet.length + 1) runSpec

def runSpecsGroupedByLongestPath (affectedRunSpecIds : Finset AbsolutePathId)
    (rootGroup : RootGroup) : Option (List (ℕ × List RunSpec)) :=
  let affected := rootGroup.transitiveRunSpecs.filter fun spec => spec.id ∈ affectedRunSpecIds
  (affected.mapM fun runSpec =>
    (longestPathFrom rootGroup runSpec).map fun path => (path.length, runSpec)).map sortedGroups

variable (original target : RootGroup) (toKill : Dict AbsolutePathId (List Instance))

/-- What is done about a run spec that is new or changed. -/
def actionFor (newSpec : RunSpec) : Except IllegalStateException (Option DeploymentAction) :=
  match original.runSpec newSpec.id with
  -- New run spec.
  | none => .ok (some (.scaleApplication newSpec newSpec.instances []))
  | some oldSpec => do
    -- Scale-only change.
    if (← oldSpec.isOnlyScaleChange newSpec) || newSpec.isScaledToZero then
      return some (.scaleApplication newSpec newSpec.instances
        ((toKill.lookup newSpec.id).getD []))
    -- Update or restart an existing run spec.
    else if ← oldSpec.needsRestart newSpec then
      return some (.restartApplication newSpec)
    -- Other cases require no action.
    else
      return none

def stepFor (equivalenceClass : List RunSpec) : Except PlanningFailure DeploymentStep :=
  match equivalenceClass.mapM (actionFor original toKill) with
  | .error e => .error (.illegalStateException e)
  | .ok actions => .ok ⟨actions.reduceOption⟩

def dependencyOrderedSteps (affectedIds : Finset AbsolutePathId) :
    Except PlanningFailure (List DeploymentStep) :=
  match runSpecsGroupedByLongestPath affectedIds target with
  | none => .error .stackOverflowError
  | some runsByLongestPath => runsByLongestPath.mapM fun c => stepFor original toKill c.2

/-- Destroy run specs that do not exist in the target. -/
def stopStep : DeploymentStep where
  actions := (original.transitiveRunSpecs.filter fun oldRun =>
    !target.containsRunSpec oldRun.id).map .stopApplication

/-- Start run specs that do not exist in the original, requiring only 0 instances. -/
def startStep : DeploymentStep where
  actions := (target.transitiveRunSpecs.filter fun run =>
    !original.containsRunSpec run.id).map .startApplication

def addedOrChanged : List AbsolutePathId :=
  (target.transitiveRunSpecs.filter fun spec => original.runSpec spec.id ≠ some spec).map RunSpec.id

def affectedApplications : Finset AbsolutePathId :=
  (addedOrChanged original target ++
    original.transitiveRunSpecIds.filter fun id => !target.containsRunSpec id).toFinset

/-- `DeploymentPlan.apply`; the plan gets a random id when none is given. -/
def apply (version : Timestamp) (id : Option String) (randomUUID : String) :
    Except PlanningFailure DeploymentPlan :=
  match dependencyOrderedSteps original target toKill (affectedApplications original target) with
  | .error e => .error e
  | .ok ordered =>
    .ok
      { id := id.getD randomUUID
        original := original
        target := target
        steps := (stopStep original target :: startStep original target :: ordered).filter
          fun step => !step.actions.isEmpty
        version := version }

/-! ## What a plan consists of -/

variable {original target toKill}

theorem runSpec_of_actionFor {spec : RunSpec} {a : DeploymentAction}
    (h : actionFor original toKill spec = .ok (some a)) :
    a.runSpec = spec ∧ a.isScaleOrRestart = true := by
  rw [actionFor] at h
  cases hold : original.runSpec spec.id with
  | none =>
    simp only [hold] at h
    cases h
    exact ⟨rfl, rfl⟩
  | some oldSpec =>
    simp only [hold] at h
    obtain ⟨onlyScale, -, h⟩ := bind_eq_ok.mp h
    split at h
    · cases h
      exact ⟨rfl, rfl⟩
    · obtain ⟨restart, -, h⟩ := bind_eq_ok.mp h
      split at h
      · cases h
        exact ⟨rfl, rfl⟩
      · cases h

/-- The affected run specs of the target are those that are not in the original as they are. -/
theorem mem_affectedApplications {spec : RunSpec} (hv : target.ValidRoot)
    (hspec : spec ∈ target.transitiveRunSpecs) :
    spec.id ∈ affectedApplications original target ↔ original.runSpec spec.id ≠ some spec := by
  simp only [affectedApplications, addedOrChanged, List.mem_toFinset, List.mem_append,
    List.mem_map, List.mem_filter, decide_eq_true_iff]
  constructor
  · rintro (⟨spec', ⟨hspec', hne⟩, hid⟩ | ⟨-, hgone⟩)
    · obtain rfl := hv.runSpec_unique hspec' hspec hid
      exact hne
    · have hfound : target.containsRunSpec spec.id = true :=
        hv.containsRunSpec_iff.mpr ⟨spec, hspec, rfl⟩
      rw [hfound] at hgone
      cases hgone
  · exact fun hne => .inl ⟨spec, ⟨hspec, hne⟩, rfl⟩

theorem mem_stopStep {a : DeploymentAction} : a ∈ (stopStep original target).actions ↔
    ∃ spec, a = .stopApplication spec ∧ spec ∈ original.transitiveRunSpecs ∧
      target.containsRunSpec spec.id = false := by
  simp only [stopStep, List.mem_map, List.mem_filter, Bool.not_eq_true']
  exact exists_congr fun spec => by rw [and_comm, eq_comm]

theorem mem_startStep {a : DeploymentAction} : a ∈ (startStep original target).actions ↔
    ∃ spec, a = .startApplication spec ∧ spec ∈ target.transitiveRunSpecs ∧
      original.containsRunSpec spec.id = false := by
  simp only [startStep, List.mem_map, List.mem_filter, Bool.not_eq_true']
  exact exists_congr fun spec => by rw [and_comm, eq_comm]

theorem actions_of_stepFor {specs : List RunSpec} {step : DeploymentStep}
    (h : stepFor original toKill specs = .ok step) {a : DeploymentAction} :
    a ∈ step.actions ↔ ∃ spec ∈ specs, actionFor original toKill spec = .ok (some a) := by
  rw [stepFor] at h
  cases hactions : specs.mapM (actionFor original toKill) with
  | error e =>
    rw [hactions] at h
    cases h
  | ok actions =>
    rw [hactions] at h
    cases h
    have hopt := toOption_mapM (actionFor original toKill) specs
    rw [hactions] at hopt
    rw [List.reduceOption_mem_iff, mem_of_mapM hopt.symm]
    exact exists_congr fun spec => and_congr_right fun _ => toOption_eq_some

theorem sublist_of_stepFor {specs : List RunSpec} {step : DeploymentStep}
    (h : stepFor original toKill specs = .ok step) :
    (step.actions.map DeploymentAction.runSpec).Sublist specs := by
  rw [stepFor] at h
  cases hactions : specs.mapM (actionFor original toKill) with
  | error e =>
    rw [hactions] at h
    cases h
  | ok actions =>
    rw [hactions] at h
    obtain rfl := Except.ok.inj h
    have hopt := toOption_mapM (actionFor original toKill) specs
    rw [hactions] at hopt
    have hforall := forall₂_of_mapM hopt.symm
    clear hopt hactions h
    induction hforall with
    | nil => exact .slnil
    | @cons spec action specs actions hab _ ih =>
      cases action with
      | none => exact ih.cons spec
      | some a =>
        obtain ⟨rfl, -⟩ := runSpec_of_actionFor (toOption_eq_some.mp hab)
        exact ih.cons_cons a.runSpec

variable (original target toKill) in
/-- The actions of a plan, with the rank of their step: what is stopped is first, what is
started comes next, and then the run specs by the length of their longest path. -/
def Prescribes (rank : ℕ) : DeploymentAction → Prop
  | .stopApplication spec =>
    rank = 0 ∧ spec ∈ original.transitiveRunSpecs ∧ target.containsRunSpec spec.id = false
  | .startApplication spec =>
    rank = 1 ∧ spec ∈ target.transitiveRunSpecs ∧ original.containsRunSpec spec.id = false
  | a =>
    a.runSpec ∈ target.transitiveRunSpecs ∧
      a.runSpec.id ∈ affectedApplications original target ∧
      (∃ path, longestPathFrom target a.runSpec = some path ∧ rank = path.length + 1) ∧
      actionFor original toKill a.runSpec = .ok (some a)

theorem prescribes_of_isScaleOrRestart {a : DeploymentAction}
    (ha : a.isScaleOrRestart = true) : Prescribes original target toKill rank a ↔
      a.runSpec ∈ target.transitiveRunSpecs ∧
        a.runSpec.id ∈ affectedApplications original target ∧
        (∃ path, longestPathFrom target a.runSpec = some path ∧ rank = path.length + 1) ∧
        actionFor original toKill a.runSpec = .ok (some a) := by
  cases a with
  | startApplication => cases ha
  | stopApplication => cases ha
  | scaleApplication => rfl
  | restartApplication => rfl

theorem mem_runSpecsGroupedByLongestPath {classes : List (ℕ × List RunSpec)}
    (h : runSpecsGroupedByLongestPath ids target = some classes) :
    classes.Pairwise (fun c c' => c.1 < c'.1) ∧ (∀ c ∈ classes, c.2 ≠ []) ∧
      ∀ n spec, (∃ c ∈ classes, c.1 = n ∧ spec ∈ c.2) ↔
        spec ∈ target.transitiveRunSpecs ∧ spec.id ∈ ids ∧
          ∃ path, longestPathFrom target spec = some path ∧ n = path.length := by
  obtain ⟨lengths, hlengths, rfl⟩ := Option.map_eq_some_iff.mp h
  refine ⟨pairwise_sortedGroups lengths, fun c => ne_nil_of_mem_sortedGroups, fun n spec => ?_⟩
  have hgroups : (∃ c ∈ sortedGroups lengths, c.1 = n ∧ spec ∈ c.2) ↔ (n, spec) ∈ lengths := by
    constructor
    · rintro ⟨c, hc, rfl, hspec⟩
      exact (mem_of_mem_sortedGroups hc).mp hspec
    · exact fun hmem => exists_mem_sortedGroups hmem
  rw [hgroups, mem_of_mapM hlengths]
  simp only [List.mem_filter, decide_eq_true_iff, Option.map_eq_some_iff, Prod.mk.injEq]
  constructor
  · rintro ⟨spec', ⟨hspec, hid⟩, path, hpath, rfl, rfl⟩
    exact ⟨hspec, hid, path, hpath, rfl⟩
  · rintro ⟨hspec, hid, path, hpath, rfl⟩
    exact ⟨spec, ⟨hspec, hid⟩, path, hpath, rfl, rfl⟩

theorem exists_ranked_steps {classes : List (ℕ × List RunSpec)} {ordered : List DeploymentStep}
    (h : classes.mapM (fun c => stepFor original toKill c.2) = .ok ordered) :
    ∃ ranked : List (ℕ × DeploymentStep), ranked.map Prod.snd = ordered ∧
      ranked.map Prod.fst = classes.map (fun c => c.1 + 1) ∧
      ∀ rank a, (∃ s ∈ ranked, s.1 = rank ∧ a ∈ s.2.actions) ↔
        ∃ c ∈ classes, rank = c.1 + 1 ∧
          ∃ spec ∈ c.2, actionFor original toKill spec = .ok (some a) := by
  induction classes generalizing ordered with
  | nil =>
    cases h
    exact ⟨[], rfl, rfl, by simp⟩
  | cons c classes ih =>
    rw [List.mapM_cons] at h
    obtain ⟨step, hstep, h⟩ := bind_eq_ok.mp h
    obtain ⟨rest, hrest, h⟩ := bind_eq_ok.mp h
    cases h
    obtain ⟨ranked, hsnd, hfst, hmem⟩ := ih hrest
    refine ⟨(c.1 + 1, step) :: ranked, by simp [hsnd], by simp [hfst], fun rank a => ?_⟩
    rw [List.exists_mem_cons_iff, List.exists_mem_cons_iff, hmem, actions_of_stepFor hstep,
      eq_comm]

theorem nodup_runSpecsGroupedByLongestPath
    {classes : List (ℕ × List RunSpec)} (hv : target.ValidRoot)
    (h : runSpecsGroupedByLongestPath ids target = some classes) :
    ((classes.flatMap Prod.snd).map RunSpec.id).Nodup := by
  obtain ⟨lengths, hlengths, rfl⟩ := Option.map_eq_some_iff.mp h
  have hsnd : lengths.map Prod.snd =
      target.transitiveRunSpecs.filter fun spec => spec.id ∈ ids := by
    refine (map_eq_of_mapM ?_ hlengths).trans (List.map_id _)
    intro spec _ b hb
    obtain ⟨path, -, rfl⟩ := Option.map_eq_some_iff.mp hb
    rfl
  have hnodup : (lengths.map Prod.snd).Nodup := by
    rw [hsnd]
    exact hv.nodup_map_id.of_map.filter _
  apply List.Nodup.map_on ?_ (nodup_flatMap_sortedGroups hnodup)
  have hin : ∀ spec ∈ (sortedGroups lengths).flatMap Prod.snd, spec ∈ target.transitiveRunSpecs := by
    intro spec hspec
    obtain ⟨g, hg, hspec⟩ := List.mem_flatMap.mp hspec
    have hpair := (mem_of_mem_sortedGroups hg).mp hspec
    have hmem : spec ∈ lengths.map Prod.snd := List.mem_map_of_mem hpair
    rw [hsnd] at hmem
    exact List.mem_of_mem_filter hmem
  intro spec hspec spec' hspec' hid
  exact hv.runSpec_unique (hin spec hspec) (hin spec' hspec') hid

theorem sublist_of_steps {classes : List (ℕ × List RunSpec)} {ordered : List DeploymentStep}
    (h : classes.mapM (fun c => stepFor original toKill c.2) = .ok ordered) :
    ((ordered.flatMap DeploymentStep.actions).map DeploymentAction.runSpec).Sublist
      (classes.flatMap Prod.snd) := by
  induction classes generalizing ordered with
  | nil =>
    cases h
    exact .slnil
  | cons c classes ih =>
    rw [List.mapM_cons] at h
    obtain ⟨step, hstep, h⟩ := bind_eq_ok.mp h
    obtain ⟨rest, hrest, h⟩ := bind_eq_ok.mp h
    cases h
    rw [List.flatMap_cons, List.map_append, List.flatMap_cons]
    exact (sublist_of_stepFor hstep).append (ih hrest)

theorem exists_of_apply {version : Timestamp} {id : Option String} {uuid : String}
    {plan : DeploymentPlan} (h : apply original target toKill version id uuid = .ok plan) :
    ∃ classes ordered, runSpecsGroupedByLongestPath (affectedApplications original target) target =
        some classes ∧
      classes.mapM (fun c => stepFor original toKill c.2) = .ok ordered ∧
      plan.steps = (stopStep original target :: startStep original target :: ordered).filter
        fun step => !step.actions.isEmpty := by
  rw [apply, dependencyOrderedSteps] at h
  cases hclasses : runSpecsGroupedByLongestPath (affectedApplications original target) target with
  | none =>
    rw [hclasses] at h
    cases h
  | some classes =>
    cases hordered : classes.mapM fun c => stepFor original toKill c.2 with
    | error e =>
      rw [hclasses] at h
      simp only [hordered] at h
      cases h
    | ok ordered =>
      rw [hclasses] at h
      simp only [hordered] at h
      cases h
      exact ⟨classes, ordered, rfl, hordered, rfl⟩

theorem exists_ranked {version : Timestamp} {id : Option String} {uuid : String}
    {plan : DeploymentPlan} (h : apply original target toKill version id uuid = .ok plan) :
    ∃ ranked : List (ℕ × DeploymentStep), plan.steps = ranked.map Prod.snd ∧
      ranked.Pairwise (fun s s' => s.1 < s'.1) ∧
      ∀ rank a, Prescribes original target toKill rank a ↔
        ∃ s ∈ ranked, s.1 = rank ∧ a ∈ s.2.actions := by
  obtain ⟨classes, ordered, hclasses, hordered, hsteps⟩ := exists_of_apply h
  obtain ⟨hpairwise, hnonempty, hmem⟩ := mem_runSpecsGroupedByLongestPath hclasses
  obtain ⟨ranked, rfl, hfst, hranked⟩ := exists_ranked_steps hordered
  have hsorted : ranked.Pairwise fun s s' => s.1 < s'.1 := by
    rw [← List.pairwise_map, hfst, List.pairwise_map]
    exact hpairwise.imp fun hlt => Nat.add_lt_add_right hlt 1
  have hlater : ∀ s ∈ ranked, 1 < s.1 := by
    intro s hs
    have hkey : s.1 ∈ classes.map fun c => c.1 + 1 := hfst ▸ List.mem_map_of_mem hs
    obtain ⟨c, hc, heq⟩ := List.mem_map.mp hkey
    obtain ⟨spec, hspec⟩ := List.exists_mem_of_ne_nil c.2 (hnonempty c hc)
    obtain ⟨-, -, path, hpath, hlen⟩ := (hmem c.1 spec).mp ⟨c, hc, rfl, hspec⟩
    have hpos := (DirectedGraph.path_of_longestPathFromVertex hpath).length_pos
    omega
  let all := (0, stopStep original target) :: (1, startStep original target) :: ranked
  refine ⟨all.filter fun s => !s.2.actions.isEmpty, ?_, ?_, fun rank a => ?_⟩
  · have hall : stopStep original target :: startStep original target :: ranked.map Prod.snd =
        all.map Prod.snd := rfl
    rw [hsteps, hall, List.filter_map]
    rfl
  · apply List.Pairwise.filter
    refine .cons ?_ (.cons hlater hsorted)
    intro s hs
    rcases List.mem_cons.mp hs with rfl | hs
    · exact Nat.zero_lt_one
    · exact Nat.zero_lt_one.trans (hlater s hs)
  · have hall : (∃ s ∈ all.filter fun s => !s.2.actions.isEmpty, s.1 = rank ∧ a ∈ s.2.actions) ↔
        ∃ s ∈ all, s.1 = rank ∧ a ∈ s.2.actions := by
      refine exists_congr fun s => ?_
      rw [List.mem_filter, and_assoc]
      refine and_congr_right fun _ => ⟨And.right, fun hs => ⟨?_, hs⟩⟩
      rw [List.isEmpty_eq_false_iff.mpr (List.ne_nil_of_mem hs.2), Bool.not_false]
    rw [hall, List.exists_mem_cons_iff, List.exists_mem_cons_iff, hranked, mem_stopStep,
      mem_startStep]
    have hclass : (∃ c ∈ classes, rank = c.1 + 1 ∧
        ∃ spec ∈ c.2, actionFor original toKill spec = .ok (some a)) ↔
          a.isScaleOrRestart = true ∧ Prescribes original target toKill rank a := by
      constructor
      · rintro ⟨c, hc, rfl, spec, hspec, haction⟩
        obtain ⟨rfl, hkind⟩ := runSpec_of_actionFor haction
        obtain ⟨hmem, hid, path, hpath, hlen⟩ := (hmem c.1 a.runSpec).mp ⟨c, hc, rfl, hspec⟩
        exact ⟨hkind, (prescribes_of_isScaleOrRestart hkind).mpr
          ⟨hmem, hid, ⟨path, hpath, by rw [hlen]⟩, haction⟩⟩
      · rintro ⟨hkind, hprescribed⟩
        obtain ⟨hspec, hid, ⟨path, hpath, rfl⟩, haction⟩ :=
          (prescribes_of_isScaleOrRestart hkind).mp hprescribed
        obtain ⟨c, hc, hlen, hin⟩ := (hmem path.length a.runSpec).mpr ⟨hspec, hid, path, hpath, rfl⟩
        exact ⟨c, hc, by rw [hlen], a.runSpec, hin, haction⟩
    rw [hclass]
    cases a with
    | stopApplication spec =>
      simp [Prescribes, DeploymentAction.isScaleOrRestart, eq_comm (a := rank)]
    | startApplication spec =>
      simp [Prescribes, DeploymentAction.isScaleOrRestart, eq_comm (a := rank)]
    | scaleApplication spec scaleTo kills => simp [DeploymentAction.isScaleOrRestart]
    | restartApplication spec => simp [DeploymentAction.isScaleOrRestart]

/-- No run spec is scaled or restarted twice. -/
theorem nodup_scaleOrRestart {version : Timestamp} {id : Option String} {uuid : String}
    {plan : DeploymentPlan} (hv : target.ValidRoot)
    (h : apply original target toKill version id uuid = .ok plan) :
    (((plan.steps.flatMap DeploymentStep.actions).filter
      DeploymentAction.isScaleOrRestart).map fun a => a.runSpec.id).Nodup := by
  obtain ⟨classes, ordered, hclasses, hordered, hsteps⟩ := exists_of_apply h
  have hnone : ((stopStep original target).actions ++
      (startStep original target).actions).filter DeploymentAction.isScaleOrRestart = [] := by
    rw [List.filter_eq_nil_iff]
    intro a ha
    rcases List.mem_append.mp ha with ha | ha
    · obtain ⟨spec, rfl, -⟩ := mem_stopStep.mp ha
      exact Bool.false_ne_true
    · obtain ⟨spec, rfl, -⟩ := mem_startStep.mp ha
      exact Bool.false_ne_true
  have hsub : ((plan.steps.flatMap DeploymentStep.actions).filter
      DeploymentAction.isScaleOrRestart).Sublist (ordered.flatMap DeploymentStep.actions) := by
    have hall : (plan.steps.flatMap DeploymentStep.actions).Sublist
        (((stopStep original target).actions ++ (startStep original target).actions) ++
          ordered.flatMap DeploymentStep.actions) := by
      rw [hsteps, List.append_assoc, ← List.flatMap_cons, ← List.flatMap_cons]
      exact List.filter_sublist.flatMap DeploymentStep.actions
    have hfiltered := hall.filter DeploymentAction.isScaleOrRestart
    rw [List.filter_append, hnone, List.nil_append] at hfiltered
    exact hfiltered.trans List.filter_sublist
  have hids := (hsub.map DeploymentAction.runSpec).trans (sublist_of_steps hordered)
  have hnodup := (nodup_runSpecsGroupedByLongestPath hv hclasses).sublist (hids.map RunSpec.id)
  rwa [List.map_map] at hnodup

/-! ## When there is a plan -/

/-- No id stands for an app in one of the groups and for a pod in the other. -/
def SameKinds (original target : RootGroup) : Prop :=
  ∀ oldSpec ∈ original.transitiveRunSpecs, ∀ newSpec ∈ target.transitiveRunSpecs,
    oldSpec.id = newSpec.id → oldSpec.isApp = newSpec.isApp

theorem exists_actionFor (hkinds : SameKinds original target) {spec : RunSpec}
    (hspec : spec ∈ target.transitiveRunSpecs) :
    ∃ action, actionFor original toKill spec = .ok action := by
  rw [actionFor]
  cases hold : original.runSpec spec.id with
  | none => exact ⟨_, rfl⟩
  | some oldSpec =>
    obtain ⟨hmem, hid⟩ := Group.mem_transitiveRunSpecs_of_runSpec hold
    obtain ⟨upgrade, hupgrade⟩ := RunSpec.exists_isUpgrade (hkinds oldSpec hmem spec hspec hid)
    dsimp only
    rw [RunSpec.isOnlyScaleChange_eq hupgrade, RunSpec.needsRestart_eq hupgrade]
    dsimp only [bind, Except.bind]
    split
    · exact ⟨_, rfl⟩
    · split <;> exact ⟨_, rfl⟩

theorem exists_plan (hkinds : SameKinds original target)
    (hacyclic : target.dependencyGraph.Acyclic) (version : Timestamp) (id : Option String)
    (uuid : String) : ∃ plan, apply original target toKill version id uuid = .ok plan := by
  have hpath : ∀ spec, ∃ path, longestPathFrom target spec = some path :=
    DirectedGraph.exists_longestPathFromVertex hacyclic (Nat.lt_succ_self _)
  obtain ⟨classes, hclasses⟩ : ∃ classes, runSpecsGroupedByLongestPath
      (affectedApplications original target) target = some classes := by
    obtain ⟨lengths, hlengths⟩ := exists_mapM_eq_some (l := target.transitiveRunSpecs.filter
      fun spec => spec.id ∈ affectedApplications original target)
      (f := fun spec => (longestPathFrom target spec).map fun path => (path.length, spec))
      fun spec _ => (hpath spec).imp' _ fun path h => by rw [h, Option.map_some]
    exact ⟨_, by rw [runSpecsGroupedByLongestPath, hlengths, Option.map_some]⟩
  obtain ⟨ordered, hordered⟩ : ∃ ordered,
      classes.mapM (fun c => stepFor original toKill c.2) = .ok ordered := by
    apply exists_mapM_eq_ok
    intro c hc
    have hactions : ∀ spec ∈ c.2, ∃ action, actionFor original toKill spec = .ok action := by
      intro spec hspec
      obtain ⟨hmem, -, -⟩ := ((mem_runSpecsGroupedByLongestPath hclasses).2.2 c.1 spec).mp
        ⟨c, hc, rfl, hspec⟩
      exact exists_actionFor hkinds hmem
    obtain ⟨actions, hactions⟩ := exists_mapM_eq_ok hactions
    exact ⟨_, by rw [stepFor, hactions]⟩
  exact ⟨_, by rw [apply, dependencyOrderedSteps, hclasses]; simp only [hordered]; rfl⟩

/-! ## Where an action stands -/

/-- The action is one of the step with the index. -/
def At (plan : DeploymentPlan) (n : ℕ) (a : DeploymentAction) : Prop :=
  ∃ step, plan.steps[n]? = some step ∧ a ∈ step.actions

variable {version : Timestamp} {id : Option String} {uuid : String} {plan : DeploymentPlan}

theorem exists_at (h : apply original target toKill version id uuid = .ok plan)
    {a : DeploymentAction} (ha : Prescribes original target toKill rank a) : ∃ n, plan.At n a := by
  obtain ⟨ranked, hsteps, -, hmem⟩ := exists_ranked h
  obtain ⟨s, hs, -, ha⟩ := (hmem rank a).mp ha
  obtain ⟨n, hn⟩ := List.mem_iff_getElem?.mp hs
  exact ⟨n, s.2, by rw [hsteps, List.getElem?_map, hn, Option.map_some], ha⟩

theorem exists_rank (h : apply original target toKill version id uuid = .ok plan)
    {a : DeploymentAction} (ha : plan.At n a) :
    ∃ rank, Prescribes original target toKill rank a := by
  obtain ⟨ranked, hsteps, -, hmem⟩ := exists_ranked h
  obtain ⟨step, hstep, ha⟩ := ha
  have hin : step ∈ ranked.map Prod.snd := hsteps ▸ List.mem_of_getElem? hstep
  obtain ⟨s, hs, rfl⟩ := List.mem_map.mp hin
  exact ⟨s.1, (hmem s.1 a).mpr ⟨s, hs, rfl, ha⟩⟩

theorem rank_unique {rank' : ℕ} {a : DeploymentAction}
    (h : Prescribes original target toKill rank a)
    (h' : Prescribes original target toKill rank' a) : rank = rank' := by
  by_cases hkind : a.isScaleOrRestart = true
  · obtain ⟨-, -, ⟨path, hpath, rfl⟩, -⟩ := (prescribes_of_isScaleOrRestart hkind).mp h
    obtain ⟨-, -, ⟨path', hpath', rfl⟩, -⟩ := (prescribes_of_isScaleOrRestart hkind).mp h'
    rw [hpath] at hpath'
    rw [Option.some.inj hpath']
  · cases a with
    | stopApplication => exact h.1.trans h'.1.symm
    | startApplication => exact h.1.trans h'.1.symm
    | scaleApplication => exact absurd rfl hkind
    | restartApplication => exact absurd rfl hkind

theorem rank_of_isStop {a : DeploymentAction} (hkind : a.isStop = true)
    (ha : Prescribes original target toKill rank a) : rank = 0 := by
  cases a with
  | stopApplication => exact ha.1
  | startApplication => cases hkind
  | scaleApplication => cases hkind
  | restartApplication => cases hkind

theorem rank_of_isStart {a : DeploymentAction} (hkind : a.isStart = true)
    (ha : Prescribes original target toKill rank a) : rank = 1 := by
  cases a with
  | startApplication => exact ha.1
  | stopApplication => cases hkind
  | scaleApplication => cases hkind
  | restartApplication => cases hkind

theorem one_lt_rank {a : DeploymentAction} (hkind : a.isScaleOrRestart = true)
    (ha : Prescribes original target toKill rank a) : 1 < rank := by
  obtain ⟨-, -, ⟨path, hpath, rfl⟩, -⟩ := (prescribes_of_isScaleOrRestart hkind).mp ha
  have hpos := (DirectedGraph.path_of_longestPathFromVertex hpath).length_pos
  omega

theorem rank_pos {a : DeploymentAction} (hkind : a.isStop = false)
    (ha : Prescribes original target toKill rank a) : 0 < rank := by
  cases a with
  | stopApplication => cases hkind
  | startApplication => exact ha.1 ▸ Nat.zero_lt_one
  | scaleApplication => exact Nat.zero_lt_one.trans (one_lt_rank rfl ha)
  | restartApplication => exact Nat.zero_lt_one.trans (one_lt_rank rfl ha)

/-- The steps stand in the order of their ranks. -/
theorem at_lt_iff (h : apply original target toKill version id uuid = .ok plan) {m r r' : ℕ}
    {a b : DeploymentAction} (ha : plan.At m a) (hb : plan.At n b)
    (hr : Prescribes original target toKill r a) (hr' : Prescribes original target toKill r' b) :
    m < n ↔ r < r' := by
  obtain ⟨ranked, hsteps, hpairwise, hmem⟩ := exists_ranked h
  have hfound : ∀ k c, plan.At k c → ∃ s, ranked[k]? = some s ∧
      Prescribes original target toKill s.1 c := by
    rintro k c ⟨step, hstep, hc⟩
    rw [hsteps, List.getElem?_map] at hstep
    obtain ⟨s, hs, rfl⟩ := Option.map_eq_some_iff.mp hstep
    exact ⟨s, hs, (hmem s.1 c).mpr ⟨s, List.mem_of_getElem? hs, rfl, hc⟩⟩
  obtain ⟨s, hs, hsr⟩ := hfound m a ha
  obtain ⟨s', hs', hsr'⟩ := hfound n b hb
  obtain rfl := rank_unique hr hsr
  obtain rfl := rank_unique hr' hsr'
  obtain ⟨hm, rfl⟩ := List.getElem?_eq_some_iff.mp hs
  obtain ⟨hn, rfl⟩ := List.getElem?_eq_some_iff.mp hs'
  have hlt : ∀ i j (hi : i < ranked.length) (hj : j < ranked.length), i < j →
      ranked[i].1 < ranked[j].1 := List.pairwise_iff_getElem.mp hpairwise
  rcases lt_trichotomy m n with hmn | rfl | hnm
  · exact iff_of_true hmn (hlt m n hm hn hmn)
  · exact iff_of_false (lt_irrefl _) (lt_irrefl _)
  · exact iff_of_false hnm.not_gt (hlt n m hn hm hnm).not_gt

/-! ## Which run specs get an action -/

variable (original) in
/-- The run spec is new, or changed in a way that is acted upon. -/
def NeedsAction (spec : RunSpec) : Prop :=
  match original.runSpec spec.id with
  | none => True
  | some oldSpec =>
    oldSpec ≠ spec ∧ (oldSpec.isOnlyScaleChange spec = .ok true ∨
      oldSpec.isOnlyScaleChange spec = .ok false ∧
        (spec.isScaledToZero = true ∨ oldSpec.needsRestart spec = .ok true))

theorem exists_actionFor_iff {spec : RunSpec} :
    (original.runSpec spec.id ≠ some spec ∧
      ∃ a, actionFor original toKill spec = .ok (some a)) ↔ NeedsAction original spec := by
  rw [NeedsAction, actionFor]
  cases hold : original.runSpec spec.id with
  | none => simp
  | some oldSpec =>
    simp only [ne_eq, Option.some.injEq]
    refine and_congr_right fun _ => ?_
    cases honly : oldSpec.isOnlyScaleChange spec with
    | error e => simp [bind, Except.bind]
    | ok onlyScale =>
      cases onlyScale with
      | true => simp [bind, Except.bind, pure, Except.pure]
      | false =>
        cases hzero : spec.isScaledToZero with
        | true => simp [bind, Except.bind, pure, Except.pure]
        | false =>
          cases hrestart : oldSpec.needsRestart spec with
          | error e => simp [bind, Except.bind]
          | ok restart => cases restart <;> simp [bind, Except.bind, pure, Except.pure]

/-- What gets an action gets it at the rank of its longest path. -/
theorem exists_prescribed {spec : RunSpec} (hv : target.ValidRoot)
    (hspec : spec ∈ target.transitiveRunSpecs) (hneeds : NeedsAction original spec)
    {path : List RunSpec} (hpath : longestPathFrom target spec = some path) :
    ∃ a, a.runSpec = spec ∧ a.isScaleOrRestart = true ∧
      Prescribes original target toKill (path.length + 1) a := by
  obtain ⟨hne, a, ha⟩ := (@exists_actionFor_iff original toKill spec).mpr hneeds
  obtain ⟨rfl, hkind⟩ := runSpec_of_actionFor ha
  exact ⟨a, rfl, hkind, (prescribes_of_isScaleOrRestart hkind).mpr
    ⟨hspec, (mem_affectedApplications hv hspec).mpr hne, ⟨path, hpath, rfl⟩, ha⟩⟩

theorem needsAction_of_prescribes {a : DeploymentAction} (hv : target.ValidRoot)
    (hkind : a.isScaleOrRestart = true) (ha : Prescribes original target toKill rank a) :
    NeedsAction original a.runSpec := by
  obtain ⟨hspec, hid, -, haction⟩ := (prescribes_of_isScaleOrRestart hkind).mp ha
  exact exists_actionFor_iff.mp ⟨(mem_affectedApplications hv hspec).mp hid, a, haction⟩

end DeploymentPlan

end Marathon.Deployment
