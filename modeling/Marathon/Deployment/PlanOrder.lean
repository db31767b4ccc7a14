import Marathon.Deployment.DeploymentPlan
import Marathon.Instance.LiveTasks

/-!
# The order of a deployment plan

What a run spec depends on is scaled or restarted in an earlier step than the run spec
itself, exactly as long as the dependencies of apps on apps, which are all that the graph
knows, give it the longer path.
-/

namespace Marathon.Deployment

open Lib Relation

/-- The plan does first what other things depend on. -/
structure DeploymentPlan.Ordered (plan : DeploymentPlan) (target : RootGroup) : Prop where
  dependencies : ∀ a b m n, plan.At m a → plan.At n b → a.isScaleOrRestart = true →
    b.isScaleOrRestart = true → TransGen target.DependsOn a.runSpec b.runSpec → n < m
  stopsFirst : ∀ a b m n, plan.At m a → plan.At n b → a.isStop = true → b.isStop = false → m < n
  startsNext : ∀ a b m n, plan.At m a → plan.At n b → a.isStart = true →
    b.isScaleOrRestart = true → m < n
  once : (((plan.steps.flatMap DeploymentStep.actions).filter
    DeploymentAction.isScaleOrRestart).map fun a => a.runSpec.id).Nodup

namespace DeploymentPlan

variable {original target : RootGroup} {toKill : Dict AbsolutePathId (List Instance)}

theorem rank_lt_iff_outranks {r r' : ℕ} {a b : DeploymentAction}
    (ha : a.isScaleOrRestart = true) (hb : b.isScaleOrRestart = true)
    (hr : Prescribes original target toKill r a) (hr' : Prescribes original target toKill r' b) :
    r' < r ↔ target.dependencyGraph.Outranks a.runSpec b.runSpec := by
  obtain ⟨-, -, ⟨path, hpath, rfl⟩, -⟩ := (prescribes_of_isScaleOrRestart ha).mp hr
  obtain ⟨-, -, ⟨path', hpath', rfl⟩, -⟩ := (prescribes_of_isScaleOrRestart hb).mp hr'
  rw [DirectedGraph.outranks_iff hpath hpath', Nat.add_lt_add_iff_right]

/-! ## The order of the steps -/

/-- With an acyclic dependency graph there is a plan unless an app and a pod change places.
It does first what other things depend on just in case every run spec that is acted
upon outranks, by the dependencies of apps on apps, those acted upon that it depends on. -/
theorem ordered_iff (version : Timestamp) (id : Option String) (uuid : String)
    (hv : target.ValidRoot) (hacyclic : target.dependencyGraph.Acyclic) :
    (SameKinds original target →
      ∃ plan, apply original target toKill version id uuid = .ok plan) ∧
    ∀ plan, apply original target toKill version id uuid = .ok plan →
      (plan.Ordered target ↔ ∀ s ∈ target.transitiveRunSpecs, ∀ t ∈ target.transitiveRunSpecs,
        NeedsAction original s → NeedsAction original t → TransGen target.DependsOn s t →
          target.dependencyGraph.Outranks s t) := by
  refine ⟨fun hkinds => exists_plan hkinds hacyclic version id uuid, fun plan h => ⟨?_, ?_⟩⟩
  · intro hordered s hs t ht hneeds hneeds' hdepends
    have hfound := DirectedGraph.exists_longestPathFromVertex hacyclic (Nat.lt_succ_self _)
    obtain ⟨path, hpath⟩ := hfound s
    obtain ⟨path', hpath'⟩ := hfound t
    obtain ⟨a, rfl, ha, hr⟩ := exists_prescribed hv hs hneeds hpath
    obtain ⟨b, rfl, hb, hr'⟩ := exists_prescribed hv ht hneeds' hpath'
    obtain ⟨m, hm⟩ := exists_at h hr
    obtain ⟨n, hn⟩ := exists_at h hr'
    have hlt : n < m := hordered.dependencies a b m n hm hn ha hb hdepends
    exact (rank_lt_iff_outranks ha hb hr hr').mp ((at_lt_iff h hn hm hr' hr).mp hlt)
  · intro hcond
    constructor
    · intro a b m n hm hn ha hb hdepends
      obtain ⟨r, hr⟩ := exists_rank h hm
      obtain ⟨r', hr'⟩ := exists_rank h hn
      have houtranks := hcond a.runSpec ((prescribes_of_isScaleOrRestart ha).mp hr).1
        b.runSpec ((prescribes_of_isScaleOrRestart hb).mp hr').1
        (needsAction_of_prescribes hv ha hr) (needsAction_of_prescribes hv hb hr') hdepends
      exact (at_lt_iff h hn hm hr' hr).mpr ((rank_lt_iff_outranks ha hb hr hr').mpr houtranks)
    · intro a b m n hm hn ha hb
      obtain ⟨r, hr⟩ := exists_rank h hm
      obtain ⟨r', hr'⟩ := exists_rank h hn
      apply (at_lt_iff h hm hn hr hr').mpr
      rw [rank_of_isStop ha hr]
      exact rank_pos hb hr'
    · intro a b m n hm hn ha hb
      obtain ⟨r, hr⟩ := exists_rank h hm
      obtain ⟨r', hr'⟩ := exists_rank h hn
      apply (at_lt_iff h hm hn hr hr').mpr
      rw [rank_of_isStart ha hr]
      exact one_lt_rank hb hr'
    · exact nodup_scaleOrRestart hv h

end DeploymentPlan

/-! ## An app that depends on another app -/

namespace AppOnApp

def mongo : AppDefinition := plainApp ⟨["db", "mongo"]⟩ ∅

def shop : AppDefinition := plainApp ⟨["web", "shop"]⟩ {mongo.id}

def db : Group := plainGroup ⟨["db"]⟩ [mongo] [] ∅

def web : Group := plainGroup ⟨["web"]⟩ [shop] [] ∅

def original : RootGroup := plainRoot []

def target : RootGroup := plainRoot [db, web]

theorem validRoot_target : target.ValidRoot :=
  Group.validRoot_plainRoot (by decide) (by decide) (by decide) (by decide)

theorem transitiveRunSpecs_target : target.transitiveRunSpecs = [.app mongo, .app shop] := rfl

theorem edgeSet_target : target.dependencyGraph.edgeSet = [(.app shop, .app mongo)] := rfl

theorem acyclic_target : target.dependencyGraph.Acyclic := by
  apply DirectedGraph.acyclic_of_rank fun s => if s.id = shop.id then 1 else 0
  rw [edgeSet_target]
  decide

theorem dependsOn_target {s t : RunSpec} (h : target.DependsOn s t) :
    s = .app shop ∧ t = .app mongo := by
  obtain ⟨hs, id, hdeclares, ht, hleads⟩ := h
  have hgroups : ∀ g, Group.Within target g → g.dependencies = ∅ ∧ g.id ≠ mongo.id := by
    intro g hw
    have hflat : ∀ g ∈ [db, web], g.groupsById = [] := by
      intro g hg
      rcases List.mem_pair.mp hg with rfl | rfl <;> rfl
    rcases Group.within_plainRoot hflat hw with rfl | hg
    · exact ⟨rfl, by decide⟩
    · rcases List.mem_pair.mp hg with rfl | rfl
      · exact ⟨rfl, by decide⟩
      · exact ⟨rfl, by decide⟩
  have hown : s = .app shop ∧ id = mongo.id := by
    rw [transitiveRunSpecs_target, List.mem_pair] at hs
    rcases hdeclares with ⟨app, rfl, hid⟩ | ⟨g, hw, -, hid⟩
    · rcases hs with hs | hs
      · cases hs
        exact absurd hid (Finset.notMem_empty id)
      · cases hs
        exact ⟨rfl, Finset.mem_singleton.mp hid⟩
    · rw [(hgroups g hw).1] at hid
      exact absurd hid (Finset.notMem_empty id)
  obtain ⟨rfl, rfl⟩ := hown
  refine ⟨rfl, ?_⟩
  rw [transitiveRunSpecs_target, List.mem_pair] at ht
  rcases hleads with hid | ⟨g, hw, hid, -⟩
  · rcases ht with rfl | rfl
    · rfl
    · exact absurd hid (by decide)
  · exact absurd hid (hgroups g hw).2

end AppOnApp

open AppOnApp in
theorem ordered_shop_after_mongo : ∃ plan,
    DeploymentPlan.apply original target ∅ ⟨0⟩ none "id" = .ok plan ∧ plan.Ordered target := by
  have hkinds : DeploymentPlan.SameKinds original target := fun oldSpec hold =>
    absurd hold List.not_mem_nil
  obtain ⟨hexists, hiff⟩ := @DeploymentPlan.ordered_iff original _ ∅ ⟨0⟩ none "id"
    validRoot_target acyclic_target
  obtain ⟨plan, hplan⟩ := hexists hkinds
  refine ⟨plan, hplan, (hiff plan hplan).mpr ?_⟩
  intro s _ t _ _ _ hdepends
  have honly : ∀ t, TransGen target.DependsOn s t → s = .app shop ∧ t = .app mongo := by
    intro t ht
    induction ht with
    | single h => exact dependsOn_target h
    | tail _ h ih => exact ⟨ih.1, (dependsOn_target h).2⟩
  obtain ⟨rfl, rfl⟩ := honly t hdepends
  exact acyclic_target.outranks (.single (List.mem_singleton_self _))

/-! ## A pod in a group that depends on another group -/

namespace PodInGroup

def mongo : AppDefinition := plainApp ⟨["db", "mongo"]⟩ ∅

def shop : PodDefinition := plainPod ⟨["web", "shop"]⟩ ["shop"]

def db : Group := plainGroup ⟨["db"]⟩ [mongo] [] ∅

/-- The group of the pod depends on the group of the app. -/
def web : Group := plainGroup ⟨["web"]⟩ [] [shop] {⟨["db"]⟩}

def original : RootGroup := plainRoot []

def target : RootGroup := plainRoot [db, web]

theorem validRoot_original : original.ValidRoot :=
  Group.validRoot_plainRoot (by decide) (by decide) (by decide) (by decide)

theorem validRoot_target : target.ValidRoot :=
  Group.validRoot_plainRoot (by decide) (by decide) (by decide) (by decide)

theorem acyclic_target : target.dependencyGraph.Acyclic := by
  apply DirectedGraph.acyclic_of_rank fun _ => 0
  decide

theorem transitiveRunSpecs_target : target.transitiveRunSpecs = [.app mongo, .pod shop] := rfl

theorem dependsOn_shop_mongo : target.DependsOn (.pod shop) (.app mongo) := by
  have hshop : .pod shop ∈ target.transitiveRunSpecs := by
    rw [transitiveRunSpecs_target]
    exact .tail _ (.head _)
  have hmongo : .app mongo ∈ target.transitiveRunSpecs := by
    rw [transitiveRunSpecs_target]
    exact .head _
  have hdb : Group.Within target db := .child (.head _) (.refl db)
  have hweb : Group.Within target web := .child (.tail _ (.head _)) (.refl web)
  have hinDb : .app mongo ∈ db.transitiveRunSpecs := .head _
  have hinWeb : .pod shop ∈ web.transitiveRunSpecs := .head _
  have hdepends : (⟨["db"]⟩ : AbsolutePathId) ∈ web.dependencies := Finset.mem_singleton_self _
  exact ⟨hshop, ⟨["db"]⟩, .inr ⟨web, hweb, hinWeb, hdepends⟩, hmongo, .inr ⟨db, hdb, rfl, hinDb⟩⟩

end PodInGroup

open PodInGroup in
/-- Not every plan does first what other things depend on: the pod is scaled in the same step
as the app that its group depends on. -/
theorem not_forall_ordered : ¬ ∀ (original target : RootGroup)
    (toKill : Dict AbsolutePathId (List Instance)) (version : Timestamp) (id : Option String)
    (uuid : String), original.ValidRoot → target.ValidRoot → target.dependencyGraph.Acyclic →
      ∀ plan, DeploymentPlan.apply original target toKill version id uuid = .ok plan →
        plan.Ordered target := by
  intro hall
  have hkinds : DeploymentPlan.SameKinds original target := fun oldSpec hold =>
    absurd hold List.not_mem_nil
  obtain ⟨plan, hplan⟩ := @DeploymentPlan.exists_plan _ _ ∅ hkinds acyclic_target ⟨0⟩ none "id"
  have hordered := hall original target ∅ ⟨0⟩ none "id" validRoot_original validRoot_target
    acyclic_target plan hplan
  obtain ⟨hshop, _, _, hmongo, _⟩ := dependsOn_shop_mongo
  have hnone : ∀ s t, ¬ target.dependencyGraph.Edge s t := fun s t he => List.not_mem_nil he
  have hpath : ∀ s, DeploymentPlan.longestPathFrom target s = some [s] := fun s =>
    DirectedGraph.longestPathFromVertex_of_no_edge (hnone s)
  obtain ⟨a, ha, hkind, hr⟩ := @DeploymentPlan.exists_prescribed original _ ∅ _ validRoot_target
    hshop trivial _ (hpath _)
  obtain ⟨b, hb, hkind', hr'⟩ := @DeploymentPlan.exists_prescribed original _ ∅ _ validRoot_target
    hmongo trivial _ (hpath _)
  obtain ⟨m, hm⟩ := DeploymentPlan.exists_at hplan hr
  obtain ⟨n, hn⟩ := DeploymentPlan.exists_at hplan hr'
  have hlt : n < m := hordered.dependencies a b m n hm hn hkind hkind'
    (.single (by rw [ha, hb]; exact dependsOn_shop_mongo))
  exact lt_irrefl _ ((DeploymentPlan.at_lt_iff hplan hn hm hr' hr).mp hlt)

end Marathon.Deployment
