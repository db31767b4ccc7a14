import Marathon.State.GroupContents

/-!
# Edits keep a root group well formed and are local

Every operation takes a root group in which everything stands in its place to another one, and
what stands at each path afterwards is given by the tree of what stood there before.
-/

namespace Marathon

open Lib

namespace Group

variable {g h : Group} {id : AbsolutePathId} {path : List String}

/-! ## Groups that are rebuilt at any depth -/

section Rebuild

variable {apps : Keyed AppDefinition.id → Keyed AppDefinition.id} {version : Timestamp}

theorem rebuild_eq (apps : Keyed AppDefinition.id → Keyed AppDefinition.id) (version : Timestamp)
    (g : Group) :
    g.rebuild apps version =
      apply g.id (apps g.apps) g.pods
        (g.groupsById.map fun e => (e.1, e.2.rebuild apps version)) g.dependencies version
        g.enforceRole := by
  have hentries : ∀ entries : List (AbsolutePathId × Group),
      rebuildEntries apps version entries =
        entries.map fun e => (e.1, e.2.rebuild apps version) := by
    intro entries
    induction entries with
    | nil => simp [rebuildEntries]
    | cons entry entries ih =>
      obtain ⟨id, group⟩ := entry
      simp [rebuildEntries, rebuildEntry, ih]
  obtain ⟨id, own, pods, groupsById, dependencies, v, enforceRole⟩ := g
  rw [rebuild, hentries]

@[simp]
theorem id_rebuild (g : Group) : (g.rebuild apps version).id = g.id := by
  rw [rebuild_eq]
  rfl

theorem within_rebuild :
    Within (g.rebuild apps version) h ↔ ∃ k, Within g k ∧ h = k.rebuild apps version := by
  have hentries : ∀ g : Group, (g.rebuild apps version).groupsById =
      g.groupsById.map fun e => (e.1, e.2.rebuild apps version) := by
    intro g
    rw [rebuild_eq]
    rfl
  constructor
  · induction g using Group.induction with
    | h g ih =>
      intro hw
      generalize hg : g.rebuild apps version = g' at hw
      cases hw with
      | refl => exact ⟨g, .refl g, hg.symm⟩
      | child he hw =>
        rw [← hg, hentries] at he
        obtain ⟨e, hmem, rfl⟩ := List.mem_map.mp he
        obtain ⟨k, hk, rfl⟩ := ih e hmem hw
        exact ⟨k, .child hmem hk, rfl⟩
  · rintro ⟨k, hw, rfl⟩
    induction hw with
    | refl => exact .refl _
    | @child g k e he _ ih =>
      refine .child (e := (e.1, e.2.rebuild apps version)) ?_ ih
      rw [hentries]
      exact List.mem_map_of_mem he

theorem version_of_within_rebuild (hw : Within (g.rebuild apps version) h) :
    h.version = version := by
  obtain ⟨k, -, rfl⟩ := within_rebuild.mp hw
  rw [rebuild_eq]
  rfl

/-- The apps of every group stay below its path. -/
theorem InPlace.rebuild (hg : g.InPlace)
    (happs : ∀ k, Within g k → ∀ app ∈ (apps k.apps).values, app.id.parent = k.id) :
    (g.rebuild apps version).InPlace ∧
      (g.rebuild apps version).own = { g.own with apps := apps g.apps } := by
  induction g using Group.induction with
  | h g ih =>
    have hchildren : ∀ e ∈ g.groupsById, (e.2.rebuild apps version).InPlace := fun e he =>
      (ih e he (hg.child he) fun k hk => happs k (.child he hk)).1
    rw [rebuild_eq, apply_of_isTopLevel hg.isSome_enforceRole]
    refine ⟨.mk (happs g (.refl g)) hg.parent_of_mem_pods ?_ ?_ hg.isSome_enforceRole ?_, rfl⟩
    · rw [List.map_map]
      exact hg.keys_nodup
    · intro e he
      obtain ⟨e, hmem, rfl⟩ := List.mem_map.mp he
      rw [id_rebuild]
      exact hg.entry hmem
    · intro e he
      obtain ⟨e, hmem, rfl⟩ := List.mem_map.mp he
      exact hchildren e hmem

theorem InPlace.contents_rebuild (hg : g.InPlace)
    (happs : ∀ k, Within g k → ∀ app ∈ (apps k.apps).values, app.id.parent = k.id) :
    (g.rebuild apps version).contents =
      fun path => (g.contents path).map fun o => { o with apps := apps o.apps } := by
  have hrebuilt : (g.rebuild apps version).InPlace := (hg.rebuild happs).1
  have hown : ∀ k, Within g k →
      (k.rebuild apps version).own = { k.own with apps := apps k.apps } := fun k hk =>
    ((hg.of_within hk).rebuild fun k' hk' => happs k' (hk.trans hk')).2
  funext path
  apply Option.ext
  intro o
  rw [hrebuilt.contents_eq_some, Option.map_eq_some_iff]
  constructor
  · rintro ⟨h, hw, rfl, rfl⟩
    obtain ⟨k, hk, rfl⟩ := within_rebuild.mp hw
    refine ⟨k.own, hg.contents_eq_some.mpr ⟨k, hk, ?_, rfl⟩, (hown k hk).symm⟩
    rw [id_rebuild]
  · rintro ⟨o, ho, rfl⟩
    obtain ⟨k, hk, rfl, rfl⟩ := hg.contents_eq_some.mp ho
    refine ⟨k.rebuild apps version, within_rebuild.mpr ⟨k, hk, rfl⟩, ?_, hown k hk⟩
    rw [id_rebuild]

theorem InPlace.updateVersionOf (hg : g.InPlace) (version : Timestamp) :
    (g.updateVersionOf version).InPlace ∧ (g.updateVersionOf version).contents = g.contents := by
  have happs : ∀ k, Within g k → ∀ app ∈ k.apps.values, app.id.parent = k.id := fun k hk =>
    (hg.of_within hk).parent_of_mem_apps
  refine ⟨(hg.rebuild happs).1, ?_⟩
  rw [Group.updateVersionOf, hg.contents_rebuild happs]
  funext path
  exact Option.map_id'

theorem InPlace.updateAppsOf (hg : g.InPlace) (app : AppUpdate) (version : Timestamp) :
    (g.updateAppsOf app version).InPlace ∧
      (g.updateAppsOf app version).contents = g.contents.modifyBelow g.id.path fun o =>
        { o with apps := o.apps.map app.run app.id_run } := by
  have happs : ∀ k, Within g k →
      ∀ a ∈ (k.apps.map app.run app.id_run).values, a.id.parent = k.id := by
    intro k hk a ha
    rw [Keyed.values_map] at ha
    obtain ⟨old, hold, rfl⟩ := List.mem_map.mp ha
    rw [app.id_run]
    exact (hg.of_within hk).parent_of_mem_apps old hold
  refine ⟨(hg.rebuild happs).1, ?_⟩
  rw [Group.updateAppsOf, hg.contents_rebuild happs]
  funext path
  by_cases hpath : g.id.path <+: path
  · exact (if_pos hpath).symm
  · have hnone : g.contents path = none :=
      Option.not_isSome_iff_eq_none.mp fun hsome => hpath (hg.prefix_of_isSome hsome)
    rw [PathMap.modifyBelow, if_neg hpath, hnone]
    rfl

end Rebuild

/-! ## New groups -/

section New

variable (behavior : NewGroupEnforceRoleBehavior)

/-- What stands at a path that has just been created. -/
def fresh (path : List String) : Own := (newGroup behavior ⟨path⟩).own

theorem inPlace_newGroup (id : AbsolutePathId) : (newGroup behavior id).InPlace := by
  have hnone : ∀ {V : Type} {key : V → AbsolutePathId} {v : V},
      v ∉ (∅ : Keyed key).values := fun h => by cases h
  refine .mk (fun app h => absurd h hnone) (fun pod h => absurd h hnone) List.nodup_nil ?_ ?_ ?_
  · intro e he
    cases he
  · show (if id.isTopLevel = true then _ else none : Option Bool).isSome = id.isTopLevel
    cases id.isTopLevel
    · rfl
    · cases behavior <;> rfl
  · intro e he
    cases he

variable {root : RootGroup}

theorem id_groupOrNew (hr : root.InPlace) (id : AbsolutePathId) :
    (root.groupOrNew behavior id).id = id := by
  unfold groupOrNew
  cases hl : root.group id with
  | none => rfl
  | some g => exact (hr.group_eq_some.mp hl).2

theorem inPlace_groupOrNew (hr : root.InPlace) (id : AbsolutePathId) :
    (root.groupOrNew behavior id).InPlace := by
  unfold groupOrNew
  cases hl : root.group id with
  | none => exact inPlace_newGroup behavior id
  | some g => exact hr.of_within (hr.group_eq_some.mp hl).1

theorem parent_groupOrNew (hr : root.InPlace) (id : AbsolutePathId) :
    (∀ app ∈ (root.groupOrNew behavior id).apps.values, app.id.parent = id) ∧
      ∀ pod ∈ (root.groupOrNew behavior id).pods.values, pod.id.parent = id := by
  have hold := inPlace_groupOrNew behavior hr id
  have hid := id_groupOrNew behavior hr id
  refine ⟨fun app happ => ?_, fun pod hpod => ?_⟩
  · exact (hold.parent_of_mem_apps app happ).trans hid
  · exact (hold.parent_of_mem_pods pod hpod).trans hid

theorem own_groupOrNew (id : AbsolutePathId) :
    (root.groupOrNew behavior id).own = (root.contents id.path).getD (fresh behavior id.path) := by
  unfold groupOrNew contents
  cases root.group id <;> rfl

end New

/-! ## What an edit leaves at each path -/

open scoped Classical in
/-- The tree without the group that has the id of a run spec, unless it holds an app or a pod. -/
noncomputable def dropConflicting (id : AbsolutePathId) (m : PathMap String Own) :
    PathMap String Own :=
  if id.isRoot = true ∨ m.Occupied Own.HoldsRunSpec id.path then m else m.prune id.path

end Group

namespace Edit

open Marathon.Group

/-- The update functions keep ids: what is put in the place of a group has everything in its
place, and what is put in the place of an app or a pod has its id. -/
def KeepsIds (root : RootGroup) (behavior : NewGroupEnforceRoleBehavior) : Edit → Prop
  | putGroup newGroup _ => newGroup.InPlace
  | updateApps groupId apps _ =>
    ∀ app ∈ (apps (root.groupOrNew behavior groupId).apps).values, app.id.parent = groupId
  | updateApp appId fn _ => (fn (root.app appId)).id = appId
  | updatePod podId fn _ => (fn (root.pod podId)).id = podId
  | updateGroup groupId fn => (fn (root.group groupId)).id = groupId ∧ (fn (root.group groupId)).InPlace
  | _ => True

/-- What stands at each path after the edit. Missing groups on the path to the edited one are
created, and only that group differs from before. -/
noncomputable def contents (root : RootGroup) (behavior : NewGroupEnforceRoleBehavior) :
    Edit → PathMap String Own
  | putGroup newGroup _ =>
    PathMap.graft newGroup.id.path newGroup.contents
      (root.contents.makePath (fresh behavior) newGroup.id.path)
  | makeGroup groupId => root.contents.makePath (fresh behavior) groupId.path
  | updateTransitiveApps groupId app _ =>
    (root.contents.makePath (fresh behavior) groupId.path).modifyBelow groupId.path fun o =>
      { o with apps := o.apps.map app.run app.id_run }
  | updateApps groupId apps _ =>
    (root.contents.makePath (fresh behavior) groupId.path).modify groupId.path fun o =>
      { o with apps := apps o.apps }
  | updateDependencies groupId dependencies _ =>
    (root.contents.makePath (fresh behavior) groupId.path).modify groupId.path fun o =>
      { o with dependencies := dependencies o.dependencies }
  | updateApp appId fn _ =>
    (dropConflicting appId (root.contents.makePath (fresh behavior) appId.parent.path)).modify
      appId.parent.path fun o => { o with apps := o.apps.insert (fn (root.app appId)) }
  | updatePod podId fn _ =>
    (dropConflicting podId (root.contents.makePath (fresh behavior) podId.parent.path)).modify
      podId.parent.path fun o => { o with pods := o.pods.insert (fn (root.pod podId)) }
  | updateGroup groupId fn =>
    PathMap.graft groupId.path (fn (root.group groupId)).contents
      (root.contents.makePath (fresh behavior) groupId.path)
  | updateVersion _ => root.contents
  | removeGroup groupId _ => root.contents.prune groupId.path
  | removeApp appId _ =>
    root.contents.modify appId.parent.path fun o => { o with apps := o.apps.erase appId }
  | removePod podId _ =>
    root.contents.modify podId.parent.path fun o => { o with pods := o.pods.erase podId }

/-- The version that all groups have afterwards. -/
def version (root : RootGroup) : Edit → Timestamp
  | putGroup _ version => version
  | makeGroup _ => root.version
  | updateTransitiveApps _ _ version => version
  | updateApps _ _ version => version
  | updateDependencies _ _ version => version
  | updateApp _ _ version => version
  | updatePod _ _ version => version
  | updateGroup groupId fn => (fn (root.group groupId)).version
  | updateVersion version => version
  | removeGroup _ version => version
  | removeApp _ version => version
  | removePod _ version => version

end Edit

variable {id : AbsolutePathId} {f : Own → Own} {apps : Keyed AppDefinition.id}
  {pods : Keyed PodDefinition.id}

namespace Group

variable {g h : Group} {id : AbsolutePathId} {path : List String}

/-! ## Putting a group -/

/-- A root group in which everything stands in its place. -/
structure Rooted (root : RootGroup) : Prop where
  isRoot : root.id = .root
  inPlace : root.InPlace

theorem ValidRoot.rooted {root : RootGroup} (hv : root.ValidRoot) : root.Rooted :=
  ⟨hv.isRoot, hv.inPlace⟩

/-- The result is a well-formed root group with what stands at its paths, and all its groups have
the version. -/
def Yields (result : Option RootGroup) (contents : PathMap String Own) (version : Timestamp) :
    Prop :=
  ∃ root, result = some root ∧ root.Rooted ∧ root.contents = contents ∧
    ∀ h, Within root h → h.version = version

theorem fromGroup_eq_some (hg : g.InPlace) (hid : g.id = .root) : fromGroup g = some g := by
  have henforce := hg.isSome_enforceRole
  obtain ⟨id, apps, pods, groupsById, dependencies, version, enforceRole⟩ := g
  obtain rfl : id = .root := hid
  obtain rfl : enforceRole = none := Option.not_isSome_iff_eq_none.mp (by simp [henforce]; rfl)
  rfl

theorem yields_updateVersionOf (hg : g.InPlace) (hid : g.id = .root) (version : Timestamp) :
    Yields (fromGroup (g.updateVersionOf version)) g.contents version := by
  have hversion := hg.updateVersionOf version
  have hroot : (g.updateVersionOf version).id = .root := (id_rebuild g).trans hid
  refine ⟨_, fromGroup_eq_some hversion.1 hroot, ⟨hroot, hversion.1⟩, hversion.2, ?_⟩
  exact fun h hw => version_of_within_rebuild hw

namespace Rooted

variable {root : RootGroup} (hr : root.Rooted) (behavior : NewGroupEnforceRoleBehavior)

include hr

theorem closed : root.contents.Closed := hr.inPlace.closed_contents hr.isRoot

theorem contents_groupOrNew {path : List String} (hpath : id.path <+: path)
    (hne : path ≠ id.path) : (root.groupOrNew behavior id).contents path = root.contents path := by
  unfold groupOrNew
  cases hl : root.group id with
  | some g =>
    obtain ⟨hw, rfl⟩ := hr.inPlace.group_eq_some.mp hl
    exact (hr.inPlace.contents_of_within hw hpath).symm
  | none =>
    have hnew : (newGroup behavior id).contents path = none :=
      (inPlace_newGroup behavior id).contents_eq_none hne fun e he => by cases he
    rw [Option.getD_none, hnew, eq_comm, ← Option.not_isSome_iff_eq_none]
    intro hsome
    have hid := hr.closed id.path path hpath hsome
    rw [contents, Option.isSome_map, hl] at hid
    cases hid

theorem graft_groupOrNew (id : AbsolutePathId) :
    PathMap.graft id.path (root.groupOrNew behavior id).contents
        (root.contents.makePath (fresh behavior) id.path) =
      root.contents.makePath (fresh behavior) id.path := by
  refine PathMap.graft_eq_self fun q hq => ?_
  by_cases hself : q = id.path
  · have hcontents := (inPlace_groupOrNew behavior hr.inPlace id).contents_self
    rw [id_groupOrNew behavior hr.inPlace] at hcontents
    rw [hself, hcontents, own_groupOrNew, PathMap.makePath_of_leads (List.prefix_refl _)]
  · rw [hr.contents_groupOrNew behavior hq hself, PathMap.makePath_of_not_leads]
    exact fun hle => hself (antisymm hle hq)

theorem contents_rebuildTree (version : Timestamp) {result : Group} (hresult : result.InPlace) :
    (root.rebuildTree behavior version result.id.allParents result).InPlace ∧
      (root.rebuildTree behavior version result.id.allParents result).id = .root ∧
      (root.rebuildTree behavior version result.id.allParents result).contents =
        PathMap.graft result.id.path result.contents
          (root.contents.makePath (fresh behavior) result.id.path) := by
  generalize hpath : result.id.path = path
  -- one group nearer to the root at each step
  induction path using List.reverseRecOn generalizing result with
  | nil =>
    have hid : result.id = .root := congrArg AbsolutePathId.mk hpath
    have hnil : result.id.allParents = [] := by
      rw [hid]
      rfl
    rw [hnil]
    refine ⟨hresult, hid, ?_⟩
    funext q
    exact (PathMap.graft_of_leads List.nil_prefix).symm
  | append_singleton path segment ih =>
    have hparent : result.id.parent = ⟨path⟩ := by
      rw [AbsolutePathId.parent, hpath, List.dropLast_concat]
    have hisRoot : result.id.isRoot = false := by
      simp [AbsolutePathId.isRoot, hpath]
    let oldParent := root.groupOrNew behavior ⟨path⟩
    have hold : oldParent.InPlace := inPlace_groupOrNew behavior hr.inPlace ⟨path⟩
    have hid : oldParent.id = ⟨path⟩ := id_groupOrNew behavior hr.inPlace ⟨path⟩
    have hput := hold.putEntry hresult hisRoot (hparent.trans hid.symm)
    have hcontents := hold.contents_putEntry hresult hisRoot (hparent.trans hid.symm)
    let newParent : Group :=
      { oldParent with
        groupsById := putEntry result oldParent.groupsById
        version := version }
    have hnew : newParent.InPlace :=
      hput.of_own rfl rfl rfl hput.parent_of_mem_apps hput.parent_of_mem_pods
    have hsame : newParent.contents =
        PathMap.graft result.id.path result.contents oldParent.contents := by
      rw [← hcontents, hput.contents_of_own hnew rfl rfl (f := fun o => o) rfl]
      funext q
      exact ite_eq_right_iff.mpr fun _ => Option.map_id'
    have hparents : result.id.allParents = ⟨path⟩ :: oldParent.id.allParents := by
      rw [AbsolutePathId.allParents_eq, hisRoot, hparent, hid]
      rfl
    have hstep : root.rebuildTree behavior version result.id.allParents result =
        root.rebuildTree behavior version newParent.id.allParents newParent := by
      rw [hparents]
      exact congrArg (root.rebuildTree behavior version _)
        (apply_of_isTopLevel hput.isSome_enforceRole)
    obtain ⟨hin, hroot, hrebuilt⟩ := ih hnew (congrArg AbsolutePathId.path hid)
    rw [hstep]
    refine ⟨hin, hroot, ?_⟩
    rw [hrebuilt, hsame, hpath, PathMap.graft_graft (List.prefix_append _ _),
      hr.graft_groupOrNew behavior ⟨path⟩, PathMap.graft_makePath_concat]

theorem yields_putGroup {g : Group} (hg : g.InPlace) (version : Timestamp) :
    Yields (root.putGroup behavior g version)
      (PathMap.graft g.id.path g.contents (root.contents.makePath (fresh behavior) g.id.path))
      version := by
  obtain ⟨hin, hid, hcontents⟩ := hr.contents_rebuildTree behavior version hg
  rw [← hcontents]
  exact yields_updateVersionOf hin hid version

theorem yields_updateVersion (version : Timestamp) :
    Yields (root.updateVersion version) root.contents version :=
  yields_updateVersionOf hr.inPlace hr.isRoot version

theorem yields_makeGroup (hnone : root.group id = none) :
    Yields (root.makeGroup behavior id) (root.contents.makePath (fresh behavior) id.path)
      root.version := by
  have hput := hr.yields_putGroup behavior (inPlace_newGroup behavior id) root.version
  have hnew : root.groupOrNew behavior id = newGroup behavior id := by
    rw [groupOrNew, hnone]
    rfl
  have hgraft := hr.graft_groupOrNew behavior id
  rw [hnew] at hgraft
  rw [makeGroup, hnone, ← hgraft]
  exact hput

theorem yields_putGroup_of {g : Group} (hg : g.InPlace) (hid : g.id = id)
    {f : PathMap String Own → PathMap String Own}
    (hcontents : g.contents = f (root.groupOrNew behavior id).contents)
    (hf : ∀ n m, PathMap.graft id.path (f n) m = f (PathMap.graft id.path n m))
    (version : Timestamp) :
    Yields (root.putGroup behavior g version)
      (f (root.contents.makePath (fresh behavior) id.path)) version := by
  have hput := hr.yields_putGroup behavior hg version
  rw [hid, hcontents, hf, hr.graft_groupOrNew] at hput
  exact hput

theorem yields_updateTransitiveApps (id : AbsolutePathId) (app : AppUpdate) (version : Timestamp) :
    Yields (root.updateTransitiveApps behavior id app version)
      ((root.contents.makePath (fresh behavior) id.path).modifyBelow id.path fun o =>
        { o with apps := o.apps.map app.run app.id_run }) version := by
  have hid := id_groupOrNew behavior hr.inPlace id
  have hold := (inPlace_groupOrNew behavior hr.inPlace id).updateAppsOf app version
  rw [hid] at hold
  refine hr.yields_putGroup_of behavior hold.1 ((id_rebuild _).trans hid) hold.2 ?_ version
  exact fun n m => PathMap.graft_modifyBelow

theorem yields_putGroup_own {g : Group} (hid : g.id = id)
    (hentries : g.groupsById = (root.groupOrNew behavior id).groupsById)
    (hown : g.own = f (root.groupOrNew behavior id).own)
    (henforce : g.enforceRole = (root.groupOrNew behavior id).enforceRole)
    (happs : ∀ app ∈ g.apps.values, app.id.parent = id)
    (hpods : ∀ pod ∈ g.pods.values, pod.id.parent = id) (version : Timestamp) :
    Yields (root.putGroup behavior g version)
      ((root.contents.makePath (fresh behavior) id.path).modify id.path f) version := by
  have hold := inPlace_groupOrNew behavior hr.inPlace id
  have holdId := id_groupOrNew behavior hr.inPlace id
  have hsame : g.id = (root.groupOrNew behavior id).id := hid.trans holdId.symm
  have hg : g.InPlace := by
    apply hold.of_own hsame hentries henforce
    · rwa [holdId]
    · rwa [holdId]
  have hcontents := hold.contents_of_own hg hsame hentries hown
  rw [holdId] at hcontents
  refine hr.yields_putGroup_of behavior hg hid hcontents ?_ version
  exact fun n m => PathMap.graft_modify (List.prefix_refl _)

theorem yields_updateApps {apps : Keyed AppDefinition.id → Keyed AppDefinition.id}
    (happs : ∀ app ∈ (apps (root.groupOrNew behavior id).apps).values, app.id.parent = id)
    (version : Timestamp) :
    Yields (root.updateApps behavior id apps version)
      ((root.contents.makePath (fresh behavior) id.path).modify id.path fun o =>
        { o with apps := apps o.apps }) version := by
  have hid := id_groupOrNew behavior hr.inPlace id
  have hold := inPlace_groupOrNew behavior hr.inPlace id
  obtain ⟨-, hpods⟩ := parent_groupOrNew behavior hr.inPlace id
  rw [updateApps, apply_of_isTopLevel hold.isSome_enforceRole]
  refine hr.yields_putGroup_own behavior ?_ ?_ ?_ ?_ ?_ ?_ version
  · exact hid
  · rfl
  · rfl
  · rfl
  · exact happs
  · exact hpods

theorem yields_updateDependencies (id : AbsolutePathId)
    (dependencies : Finset AbsolutePathId → Finset AbsolutePathId) (version : Timestamp) :
    Yields (root.updateDependencies behavior id dependencies version)
      ((root.contents.makePath (fresh behavior) id.path).modify id.path fun o =>
        { o with dependencies := dependencies o.dependencies }) version := by
  have hid := id_groupOrNew behavior hr.inPlace id
  obtain ⟨happs, hpods⟩ := parent_groupOrNew behavior hr.inPlace id
  refine hr.yields_putGroup_own behavior ?_ ?_ ?_ ?_ ?_ ?_ version
  · exact hid
  · rfl
  · rfl
  · rfl
  · exact happs
  · exact hpods

/-! ## Apps and pods -/

omit hr in
theorem exists_group {o : Own} (h : root.contents id.path = some o) :
    ∃ g, root.group id = some g ∧ g.own = o ∧ root.groupOrNew behavior id = g := by
  obtain ⟨g, hl, hown⟩ := Option.map_eq_some_iff.mp h
  refine ⟨g, hl, hown, ?_⟩
  rw [groupOrNew]
  exact congrArg (fun found => found.getD (newGroup behavior id)) hl

theorem yields_remove
    (hg : root.group id = some g) (hown : f g.own = ⟨apps, pods, g.dependencies, g.enforceRole⟩)
    (happs : ∀ app ∈ apps.values, app.id.parent = id)
    (hpods : ∀ pod ∈ pods.values, pod.id.parent = id) (version : Timestamp) :
    Yields
      (root.putGroup behavior (apply g.id apps pods g.groupsById g.dependencies version
        g.enforceRole) version)
      (root.contents.modify id.path f) version := by
  have hnew : root.groupOrNew behavior id = g := by
    rw [groupOrNew, hg]
    rfl
  have hsome : (root.contents id.path).isSome := by
    rw [contents, Option.isSome_map]
    exact Option.isSome_of_eq_some hg
  have hold := inPlace_groupOrNew behavior hr.inPlace id
  have hid := id_groupOrNew behavior hr.inPlace id
  rw [hnew] at hold hid
  rw [apply_of_isTopLevel hold.isSome_enforceRole,
    ← PathMap.makePath_of_isSome (fresh behavior) hr.closed hsome]
  refine hr.yields_putGroup_own behavior ?_ ?_ ?_ ?_ ?_ ?_ version
  · exact hid
  · rw [hnew]
  · rw [hnew]
    exact hown.symm
  · rw [hnew]
  · exact happs
  · exact hpods

theorem yields_putRunSpec (hold : root.groupOrNew behavior id.parent = g)
    (hown : f g.own = ⟨apps, pods, g.dependencies, g.enforceRole⟩)
    (happs : ∀ app ∈ apps.values, app.id.parent = id.parent)
    (hpods : ∀ pod ∈ pods.values, pod.id.parent = id.parent) (version : Timestamp) :
    Yields
      (root.putGroup behavior (apply g.id apps pods (withoutConflicting id g.groupsById)
        g.dependencies version g.enforceRole) version)
      ((dropConflicting id (root.contents.makePath (fresh behavior) id.parent.path)).modify
        id.parent.path f) version := by
  have hg := inPlace_groupOrNew behavior hr.inPlace id.parent
  have hid := id_groupOrNew behavior hr.inPlace id.parent
  have hmade := hr.graft_groupOrNew behavior id.parent
  rw [hold] at hg hid hmade
  have hle : id.parent.path <+: id.path := List.dropLast_prefix _
  have hocc : PathMap.Occupied Own.HoldsRunSpec id.path
        (root.contents.makePath (fresh behavior) id.parent.path) ↔
      g.contents.Occupied Own.HoldsRunSpec id.path := by
    rw [← hmade]
    exact PathMap.occupied_graft hle
  rw [apply_of_isTopLevel hg.isSome_enforceRole, dropConflicting, hocc]
  split_ifs with hkept
  · rw [hg.withoutConflicting_of_kept hkept]
    refine hr.yields_putGroup_own behavior ?_ ?_ ?_ ?_ ?_ ?_ version
    · exact hid
    · rw [hold]
    · rw [hold]
      exact hown.symm
    · rw [hold]
    · exact happs
    · exact hpods
  · obtain ⟨hroot, hempty⟩ := not_or.mp hkept
    rw [Bool.not_eq_true] at hroot
    rw [hg.withoutConflicting_of_empty hempty]
    have herased := hg.eraseEntry id
    rw [← hid] at happs hpods
    have hnew : InPlace ⟨g.id, apps, pods, Group.eraseEntry id g.groupsById, g.dependencies, version,
        g.enforceRole⟩ := herased.of_own rfl rfl rfl happs hpods
    have hcontents := herased.contents_of_own hnew rfl rfl hown.symm
    rw [hg.contents_eraseEntry hroot hid.symm] at hcontents
    refine hr.yields_putGroup_of behavior (f := fun m => (m.prune id.path).modify id.parent.path f)
      hnew hid ?_ ?_ version
    · rw [hold, ← hid]
      exact hcontents
    · intro n m
      rw [PathMap.graft_modify (List.prefix_refl _), PathMap.graft_prune hle]

theorem yields_updateApp {fn : Option AppDefinition → AppDefinition}
    (hfn : (fn (root.app id)).id = id) (version : Timestamp) :
    Yields (root.updateApp behavior id fn version)
      ((dropConflicting id (root.contents.makePath (fresh behavior) id.parent.path)).modify
        id.parent.path fun o => { o with apps := o.apps.insert (fn (root.app id)) }) version := by
  obtain ⟨happs, hpods⟩ := parent_groupOrNew behavior hr.inPlace id.parent
  rw [updateApp, if_pos hfn, hfn]
  refine hr.yields_putRunSpec behavior rfl rfl ?_ hpods version
  intro app happ
  rw [Keyed.mem_values, Keyed.lookup_insert] at happ
  split_ifs at happ with hnew
  · rw [hnew, hfn]
  · exact happs app (Keyed.mem_values.mpr happ)

theorem yields_updatePod {fn : Option PodDefinition → PodDefinition}
    (hfn : (fn (root.pod id)).id = id) (version : Timestamp) :
    Yields (root.updatePod behavior id fn version)
      ((dropConflicting id (root.contents.makePath (fresh behavior) id.parent.path)).modify
        id.parent.path fun o => { o with pods := o.pods.insert (fn (root.pod id)) }) version := by
  obtain ⟨happs, hpods⟩ := parent_groupOrNew behavior hr.inPlace id.parent
  rw [updatePod, if_pos hfn, hfn]
  refine hr.yields_putRunSpec behavior rfl rfl happs ?_ version
  intro pod hpod
  rw [Keyed.mem_values, Keyed.lookup_insert] at hpod
  split_ifs at hpod with hnew
  · rw [hnew, hfn]
  · exact hpods pod (Keyed.mem_values.mpr hpod)

/-! ## Removals -/

theorem yields_removeApp (id : AbsolutePathId) (version : Timestamp) :
    Yields (root.removeApp behavior id version)
      (root.contents.modify id.parent.path fun o => { o with apps := o.apps.erase id }) version := by
  have happ := hr.inPlace.app_eq id
  rw [held] at happ
  cases hl : root.app id with
  | none =>
    rw [hl] at happ
    rw [removeApp, hl, PathMap.modify_eq_self]
    · exact hr.yields_updateVersion version
    · intro o ho
      rw [ho] at happ
      exact congrArg (fun apps => { o with apps := apps }) (Keyed.erase_of_none happ.symm)
  | some oldApp =>
    rw [hl, eq_comm, Option.bind_eq_some_iff] at happ
    obtain ⟨o, ho, hold⟩ := happ
    obtain rfl : oldApp.id = id := Keyed.key_of_lookup hold
    obtain ⟨g, hg, rfl, hnew⟩ := exists_group behavior ho
    obtain ⟨happs, hpods⟩ := parent_groupOrNew behavior hr.inPlace oldApp.id.parent
    rw [hnew] at happs hpods
    rw [removeApp, hl]
    dsimp only
    rw [hg]
    refine hr.yields_remove behavior hg rfl ?_ hpods version
    exact fun app h => happs app (Keyed.mem_values_of_erase h)

theorem yields_removePod (id : AbsolutePathId) (version : Timestamp) :
    Yields (root.removePod behavior id version)
      (root.contents.modify id.parent.path fun o => { o with pods := o.pods.erase id }) version := by
  have hpod := hr.inPlace.pod_eq id
  rw [held] at hpod
  cases hl : root.pod id with
  | none =>
    rw [hl] at hpod
    rw [removePod, hl, PathMap.modify_eq_self]
    · exact hr.yields_updateVersion version
    · intro o ho
      rw [ho] at hpod
      exact congrArg (fun pods => { o with pods := pods }) (Keyed.erase_of_none hpod.symm)
  | some oldPod =>
    rw [hl, eq_comm, Option.bind_eq_some_iff] at hpod
    obtain ⟨o, ho, hold⟩ := hpod
    obtain rfl : oldPod.id = id := Keyed.key_of_lookup hold
    obtain ⟨g, hg, rfl, hnew⟩ := exists_group behavior ho
    obtain ⟨happs, hpods⟩ := parent_groupOrNew behavior hr.inPlace oldPod.id.parent
    rw [hnew] at happs hpods
    rw [removePod, hl]
    dsimp only
    rw [hg]
    refine hr.yields_remove behavior hg rfl happs ?_ version
    exact fun pod h => hpods pod (Keyed.mem_values_of_erase h)

theorem yields_removeGroup (hroot : id.isRoot = false) (version : Timestamp) :
    Yields (root.removeGroup behavior id version) (root.contents.prune id.path) version := by
  rw [removeGroup, if_neg (by simp [hroot])]
  cases hl : root.group id with
  | none =>
    have hnone : root.contents id.path = none := by
      rw [contents, Option.map_eq_none_iff]
      exact hl
    rw [PathMap.prune_of_eq_none hr.closed hnone]
    exact hr.yields_updateVersion version
  | some oldGroup =>
    obtain ⟨hw, rfl⟩ := hr.inPlace.group_eq_some.mp hl
    have hle : oldGroup.id.parent.path <+: oldGroup.id.path := List.dropLast_prefix _
    have hsome : (root.contents oldGroup.id.path).isSome := by
      rw [contents, Option.isSome_map]
      exact Option.isSome_of_eq_some hl
    have hparent := hr.closed _ _ hle hsome
    obtain ⟨o, ho⟩ := Option.isSome_iff_exists.mp hparent
    obtain ⟨g, hg, -, hnew⟩ := exists_group behavior ho
    have hold := inPlace_groupOrNew behavior hr.inPlace oldGroup.id.parent
    have hid := id_groupOrNew behavior hr.inPlace oldGroup.id.parent
    rw [hnew] at hold hid
    dsimp only
    rw [hg]
    dsimp only [Option.bind_eq_bind, Option.bind_some]
    rw [apply_of_isTopLevel hold.isSome_enforceRole,
      ← PathMap.makePath_of_isSome (fresh behavior) hr.closed hparent]
    have herased := hold.eraseEntry oldGroup.id
    have hput : InPlace ⟨g.id, g.apps, g.pods, Group.eraseEntry oldGroup.id g.groupsById,
        g.dependencies, version, g.enforceRole⟩ :=
      herased.of_own rfl rfl rfl herased.parent_of_mem_apps herased.parent_of_mem_pods
    refine hr.yields_putGroup_of behavior (f := PathMap.prune oldGroup.id.path) hput hid ?_ ?_
      version
    · rw [hnew, ← hold.contents_eraseEntry hroot hid.symm,
        herased.contents_of_own hput rfl rfl (f := fun o => o) rfl]
      exact PathMap.modify_eq_self fun _ _ => rfl
    · exact fun n m => PathMap.graft_prune hle

end Rooted

end Group

namespace Edit

open Marathon.Group

theorem run_makeGroup_of_isSome {root : RootGroup} {behavior : NewGroupEnforceRoleBehavior}
    {groupId : AbsolutePathId} (h : (root.group groupId).isSome) :
    (makeGroup groupId).run root behavior = some root := by
  obtain ⟨g, hl⟩ := Option.isSome_iff_exists.mp h
  rw [run, Group.makeGroup, hl]

theorem yields_run {root : RootGroup} (hr : root.Rooted) (behavior : NewGroupEnforceRoleBehavior)
    (edit : Edit) (hkeeps : edit.KeepsIds root behavior)
    (hremove : ¬∃ version, edit = .removeGroup .root version)
    (hmake : ¬∃ groupId, edit = .makeGroup groupId ∧ (root.group groupId).isSome) :
    Yields (edit.run root behavior) (edit.contents root behavior) (edit.version root) := by
  cases edit with
  | putGroup newGroup version => exact hr.yields_putGroup behavior hkeeps version
  | makeGroup groupId =>
    have hnone : ¬(root.group groupId).isSome := fun h => hmake ⟨groupId, rfl, h⟩
    exact hr.yields_makeGroup behavior (Option.not_isSome_iff_eq_none.mp hnone)
  | updateTransitiveApps groupId app version =>
    exact hr.yields_updateTransitiveApps behavior groupId app version
  | updateApps groupId apps version => exact hr.yields_updateApps behavior hkeeps version
  | updateDependencies groupId dependencies version =>
    exact hr.yields_updateDependencies behavior groupId dependencies version
  | updateApp appId fn version => exact hr.yields_updateApp behavior hkeeps version
  | updatePod podId fn version => exact hr.yields_updatePod behavior hkeeps version
  | updateGroup groupId fn =>
    obtain ⟨hid, hin⟩ := hkeeps
    have hput := hr.yields_putGroup behavior hin (fn (root.group groupId)).version
    rw [hid] at hput
    exact hput
  | updateVersion version => exact hr.yields_updateVersion version
  | removeGroup groupId version =>
    refine hr.yields_removeGroup behavior (Bool.not_eq_true _ ▸ fun hroot => hremove ?_) version
    exact ⟨version, congrArg (fun id => removeGroup id version)
      (congrArg AbsolutePathId.mk (List.isEmpty_iff.mp hroot))⟩
  | removeApp appId version => exact hr.yields_removeApp behavior appId version
  | removePod podId version => exact hr.yields_removePod behavior podId version

/-- For every edit of a well-formed root group, except the removal of the root, which is refused:
the result is well formed, has at each path what the edit leaves there, and all its groups have
the version of the edit. To make a group that exists changes nothing. -/
theorem edited {root : RootGroup} (hr : root.Rooted) (behavior : NewGroupEnforceRoleBehavior)
    (edit : Edit) (hkeeps : edit.KeepsIds root behavior) :
    (∃ version, edit = .removeGroup .root version ∧ edit.run root behavior = none) ∨
      (∃ groupId, edit = .makeGroup groupId ∧ (root.group groupId).isSome ∧
        edit.run root behavior = some root) ∨
      Yields (edit.run root behavior) (edit.contents root behavior) (edit.version root) := by
  by_cases hremove : ∃ version, edit = .removeGroup .root version
  · obtain ⟨version, rfl⟩ := hremove
    exact .inl ⟨version, rfl, rfl⟩
  by_cases hmake : ∃ groupId, edit = .makeGroup groupId ∧ (root.group groupId).isSome
  · obtain ⟨groupId, rfl, hsome⟩ := hmake
    exact .inr (.inl ⟨groupId, rfl, hsome, run_makeGroup_of_isSome hsome⟩)
  · exact .inr (.inr (yields_run hr behavior edit hkeeps hremove hmake))

/-- A group with an app, and one without that has the id of another app. -/
def twoGroups : RootGroup :=
  plainRoot
    [plainGroup ⟨["dev"]⟩ [plainApp ⟨["dev", "web"]⟩ ∅] [] ∅, plainGroup ⟨["prod"]⟩ [] [] ∅]

theorem rooted_twoGroups : twoGroups.Rooted :=
  (validRoot_plainRoot (by decide) (by decide) (by decide) (by decide)).rooted

/-- The app that takes the place of the group. -/
def prodApp : Edit := updateApp ⟨["prod"]⟩ (fun _ => plainApp ⟨["prod"]⟩ ∅) ⟨1⟩

theorem edited_prodApp :
    Yields (prodApp.run twoGroups .off) (prodApp.contents twoGroups .off) ⟨1⟩ := by
  rcases edited rooted_twoGroups .off prodApp rfl with ⟨version, h, -⟩ | ⟨groupId, h, -⟩ | h
  · cases h
  · cases h
  · exact h

/-- The root group is not removed. -/
theorem not_forall_some : ¬∀ (root : RootGroup) (behavior : NewGroupEnforceRoleBehavior)
    (edit : Edit), root.Rooted → edit.KeepsIds root behavior →
      ∃ result, edit.run root behavior = some result := by
  intro h
  obtain ⟨result, hresult⟩ :=
    h twoGroups .off (.removeGroup .root ⟨1⟩) rooted_twoGroups trivial
  cases hresult

end Edit

end Marathon
