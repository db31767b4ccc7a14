import Marathon.Lib.DirectedGraph
import Marathon.State.RootGroup

/-!
# The dependency graph of a root group

The graph has all run specs as its vertices. Its edges join apps only: an app with the apps
that its own dependencies lead to, and the apps of a group with the apps of the groups
that the group depends on.
-/

namespace Marathon.Group

open Lib

/-- The dependencies under which an app or a group is found, a set having no order in
which they could be listed. -/
def listed (root : RootGroup) (dependencies : Finset AbsolutePathId) : List AbsolutePathId :=
  (root.transitiveAppIds ++ root.transitiveGroupsById.keys).filter fun id => id ∈ dependencies

/-- group->group dependencies -/
def groupDependencies (root : RootGroup) : List (AppDefinition × AppDefinition) :=
  root.transitiveGroupsById.values.flatMap fun group =>
    (root.listed group.dependencies).flatMap fun dependencyId =>
      (root.group dependencyId).toList.flatMap fun dependency =>
        group.transitiveApps.flatMap fun app =>
          dependency.transitiveApps.map fun dependentApp => (app, dependentApp)

/-- The app with the id, or else the apps of the group with the id. -/
def dependents (root : RootGroup) (dependencyId : AbsolutePathId) : List AppDefinition :=
  let dependentApp := (root.app dependencyId).map fun dependent => [dependent]
  let dependentGroup := (root.group dependencyId).map transitiveApps
  (dependentApp.or dependentGroup).getD []

/-- app->group/app dependencies -/
def appDependencies (root : RootGroup) : List (AppDefinition × AppDefinition) :=
  root.transitiveGroupsById.values.flatMap fun group =>
    group.apps.values.flatMap fun app =>
      (root.listed app.dependencies).flatMap fun dependencyId =>
        (root.dependents dependencyId).map fun dependent => (app, dependent)

def applicationDependencies (root : RootGroup) : List (AppDefinition × AppDefinition) :=
  (root.groupDependencies ++ root.appDependencies).reverse

theorem within_of_mem_values {root g : Group} (h : g ∈ root.transitiveGroupsById.values) :
    Within root g := by
  obtain ⟨gid, hl⟩ := Dict.mem_values.mp h
  exact within_of_group hl

variable {root : RootGroup} {app dependent : AppDefinition}

theorem mem_listed {dependencies : Finset AbsolutePathId}
    {id : AbsolutePathId} : id ∈ root.listed dependencies ↔
      (id ∈ root.transitiveAppIds ∨ ∃ g, root.group id = some g) ∧ id ∈ dependencies := by
  have hkeys : id ∈ root.transitiveGroupsById.keys ↔ ∃ g, root.group id = some g := by
    rw [← Option.isSome_iff_exists, group, AList.lookup_isSome, AList.mem_keys]
  rw [listed, List.mem_filter, List.mem_append, hkeys, decide_eq_true_iff]

theorem mem_groupDependencies :
    (app, dependent) ∈ root.groupDependencies ↔
      ∃ g ∈ root.transitiveGroupsById.values, ∃ id ∈ g.dependencies, ∃ h,
        root.group id = some h ∧ app ∈ g.transitiveApps ∧ dependent ∈ h.transitiveApps := by
  simp only [groupDependencies, List.mem_flatMap, List.mem_map, Option.mem_toList, mem_listed,
    Prod.mk.injEq]
  constructor
  · rintro ⟨g, hg, id, ⟨-, hid⟩, h, hh, app', happ, dependent', hdependent, rfl, rfl⟩
    exact ⟨g, hg, id, hid, h, hh, happ, hdependent⟩
  · rintro ⟨g, hg, id, hid, h, hh, happ, hdependent⟩
    exact ⟨g, hg, id, ⟨.inr ⟨h, hh⟩, hid⟩, h, hh, app, happ, dependent, hdependent, rfl, rfl⟩

theorem mem_dependents {id : AbsolutePathId} :
    dependent ∈ root.dependents id ↔
      root.app id = some dependent ∨
        root.app id = none ∧ ∃ h, root.group id = some h ∧ dependent ∈ h.transitiveApps := by
  rw [dependents]
  cases happ : root.app id with
  | some d => simp [eq_comm]
  | none =>
    cases hgroup : root.group id with
    | some h => simp
    | none => simp

theorem mem_appDependencies :
    (app, dependent) ∈ root.appDependencies ↔
      (∃ g ∈ root.transitiveGroupsById.values, app ∈ g.apps.values) ∧ ∃ id ∈ app.dependencies,
        root.app id = some dependent ∨
          root.app id = none ∧ ∃ h, root.group id = some h ∧ dependent ∈ h.transitiveApps := by
  simp only [appDependencies, List.mem_flatMap, List.mem_map, mem_listed, mem_dependents, Prod.mk.injEq]
  constructor
  · rintro ⟨g, hg, app', happ, id, ⟨-, hid⟩, dependent', hdependent, rfl, rfl⟩
    exact ⟨⟨g, hg, happ⟩, id, hid, hdependent⟩
  · rintro ⟨⟨g, hg, happ⟩, id, hid, hdependent⟩
    refine ⟨g, hg, app, happ, id, ⟨?_, hid⟩, dependent, hdependent, rfl, rfl⟩
    rcases hdependent with hl | ⟨-, h, hl, -⟩
    · obtain ⟨hmem, hid'⟩ := mem_transitiveApps_of_app hl
      exact .inl (mem_transitiveAppIds.mpr ⟨dependent, hmem, hid'⟩)
    · exact .inr ⟨h, hl⟩

theorem mem_applicationDependencies {e : AppDefinition × AppDefinition} :
    e ∈ root.applicationDependencies ↔ e ∈ root.groupDependencies ∨ e ∈ root.appDependencies := by
  rw [applicationDependencies, List.mem_reverse, List.mem_append]

theorem mem_transitiveApps_of_applicationDependencies
    (h : (app, dependent) ∈ root.applicationDependencies) :
    app ∈ root.transitiveApps ∧ dependent ∈ root.transitiveApps := by
  rcases mem_applicationDependencies.mp h with hgroup | happ
  · obtain ⟨g, hg, id, -, k, hk, happ, hdependent⟩ := mem_groupDependencies.mp hgroup
    exact ⟨transitiveApps_subset (within_of_mem_values hg) happ,
      transitiveApps_subset (within_of_group hk) hdependent⟩
  · obtain ⟨⟨g, hg, happ⟩, id, -, hdependent⟩ := mem_appDependencies.mp happ
    refine ⟨mem_transitiveApps.mpr ⟨g, within_of_mem_values hg, Keyed.mem_values.mp happ⟩, ?_⟩
    rcases hdependent with hl | ⟨-, k, hk, hdependent⟩
    · exact (mem_transitiveApps_of_app hl).1
    · exact transitiveApps_subset (within_of_group hk) hdependent

/-- This is used to compute the "layered" topological sort during deployment. -/
def dependencyGraph (root : RootGroup) : DirectedGraph RunSpec where
  vertexSet := root.transitiveRunSpecs
  edgeSet := root.applicationDependencies.map fun e => (.app e.1, .app e.2)
  mem_vertexSet := by
    intro e he
    obtain ⟨⟨app, dependent⟩, hmem, rfl⟩ := List.mem_map.mp he
    have hboth := mem_transitiveApps_of_applicationDependencies hmem
    exact ⟨app_mem_transitiveRunSpecs.mpr hboth.1, app_mem_transitiveRunSpecs.mpr hboth.2⟩

/-! ## What depends on what

A run spec inherits the dependencies of every group around it. A dependency is the id of a
run spec, or of a group for all the run specs in it.
-/

/-- The run spec is bound by the dependency, of its own or of a group around it. -/
def Declares (root : RootGroup) (spec : RunSpec) (dependencyId : AbsolutePathId) : Prop :=
  (∃ app, spec = .app app ∧ dependencyId ∈ app.dependencies) ∨
    ∃ g, Within root g ∧ spec ∈ g.transitiveRunSpecs ∧ dependencyId ∈ g.dependencies

/-- The dependency is on the run spec, or on a group around it. -/
def LeadsTo (root : RootGroup) (dependencyId : AbsolutePathId) (spec : RunSpec) : Prop :=
  spec ∈ root.transitiveRunSpecs ∧
    (spec.id = dependencyId ∨
      ∃ g, Within root g ∧ g.id = dependencyId ∧ spec ∈ g.transitiveRunSpecs)

def DependsOn (root : RootGroup) (spec dependent : RunSpec) : Prop :=
  spec ∈ root.transitiveRunSpecs ∧
    ∃ dependencyId, root.Declares spec dependencyId ∧ root.LeadsTo dependencyId dependent

end Marathon.Group
