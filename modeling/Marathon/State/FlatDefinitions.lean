import Marathon.State.LocalEdits

/-!
# Groups and flat maps of definitions

Lookups and enumerations describe one tree: what they find is what some group within holds. To
its apps and pods an operation on a root group does what it would do to two flat maps from ids to
definitions.
-/

namespace Marathon

open Lib

namespace Group

variable {g : Group}

/-! ## Lookups and the tree -/

theorem containsApps_eq (g : Group) :
    g.containsApps = (!g.apps.values.isEmpty || g.groupsById.any fun e => e.2.containsApps) := by
  rw [containsApps, transitive_eq, List.any_append, List.any_flatMap]
  simp [containsApps]

theorem containsPods_eq (g : Group) :
    g.containsPods = (!g.pods.values.isEmpty || g.groupsById.any fun e => e.2.containsPods) := by
  rw [containsPods, transitive_eq, List.any_append, List.any_flatMap]
  simp [containsPods]

/-- Everything in its place, and no app with the id of a pod. -/
structure Coherent (g : Group) : Prop where
  inPlace : g.InPlace
  noAppsAndPodsWithSameId : ∀ app ∈ g.transitiveApps, g.pod app.id = none

def HoldsApp (g : Group) (app : AppDefinition) : Prop := ∃ h, Within g h ∧ app ∈ h.apps.values

def HoldsPod (g : Group) (pod : PodDefinition) : Prop := ∃ h, Within g h ∧ pod ∈ h.pods.values

def HoldsRunSpec (g : Group) : RunSpec → Prop
  | .app app => g.HoldsApp app
  | .pod pod => g.HoldsPod pod

/-- An element is found if and only if it occurs, and is enumerated once. -/
structure Described (g : Group) : Prop where
  app : ∀ id app, g.app id = some app ↔ g.HoldsApp app ∧ app.id = id
  pod : ∀ id pod, g.pod id = some pod ↔ g.HoldsPod pod ∧ pod.id = id
  runSpec : ∀ id spec, g.runSpec id = some spec ↔ g.HoldsRunSpec spec ∧ spec.id = id
  group : ∀ gid h, g.group gid = some h ↔ Within g h ∧ h.id = gid
  transitiveAppIds : g.transitiveAppIds.Nodup ∧
    ∀ id, id ∈ g.transitiveAppIds ↔ ∃ app, g.HoldsApp app ∧ app.id = id
  transitivePodIds : g.transitivePodIds.Nodup ∧
    ∀ id, id ∈ g.transitivePodIds ↔ ∃ pod, g.HoldsPod pod ∧ pod.id = id
  transitiveGroupsById : (g.transitiveGroupsById.bindings.map Prod.snd).Nodup ∧
    ∀ gid h, (gid, h) ∈ g.transitiveGroupsById.bindings ↔ Within g h ∧ h.id = gid
  containsApps : g.containsApps = true ↔ g.transitiveApps ≠ []
  containsPods : g.containsPods = true ↔ g.transitivePods ≠ []

theorem mem_transitiveApps_iff_holds {app : AppDefinition} :
    app ∈ g.transitiveApps ↔ g.HoldsApp app := by
  simp only [mem_transitiveApps, HoldsApp, Keyed.mem_values]

theorem mem_transitivePods_iff_holds {pod : PodDefinition} :
    pod ∈ g.transitivePods ↔ g.HoldsPod pod := by
  simp only [mem_transitivePods, HoldsPod, Keyed.mem_values]

theorem mem_transitiveRunSpecs_iff_holds {spec : RunSpec} :
    spec ∈ g.transitiveRunSpecs ↔ g.HoldsRunSpec spec := by
  cases spec with
  | app app => exact app_mem_transitiveRunSpecs.trans mem_transitiveApps_iff_holds
  | pod pod => exact pod_mem_transitiveRunSpecs.trans mem_transitivePods_iff_holds

theorem exists_values_iff {α : Type} {values : Group → List α} :
    (∃ h, Within g h ∧ values h ≠ []) ↔ g.transitive values ≠ [] := by
  constructor
  · rintro ⟨h, hw, hne⟩
    obtain ⟨a, ha⟩ := List.exists_mem_of_ne_nil (values h) hne
    exact List.ne_nil_of_mem (mem_transitive.mpr ⟨h, hw, ha⟩)
  · intro hne
    obtain ⟨a, ha⟩ := List.exists_mem_of_ne_nil (g.transitive values) hne
    obtain ⟨h, hw, ha⟩ := mem_transitive.mp ha
    exact ⟨h, hw, List.ne_nil_of_mem ha⟩

theorem Coherent.described (hg : g.Coherent) : g.Described where
  app id app := by
    rw [hg.inPlace.app_eq_some, mem_transitiveApps_iff_holds]
  pod id pod := by
    rw [hg.inPlace.pod_eq_some, mem_transitivePods_iff_holds]
  runSpec id spec := by
    rw [hg.inPlace.runSpec_eq_some hg.noAppsAndPodsWithSameId, mem_transitiveRunSpecs_iff_holds]
  group gid h := hg.inPlace.group_eq_some
  transitiveAppIds := by
    refine ⟨hg.inPlace.nodup_transitiveAppIds, fun id => ?_⟩
    simp only [mem_transitiveAppIds, mem_transitiveApps_iff_holds]
  transitivePodIds := by
    refine ⟨hg.inPlace.nodup_transitivePodIds, fun id => ?_⟩
    simp only [mem_transitivePodIds, mem_transitivePods_iff_holds]
  transitiveGroupsById := by
    have hmem : ∀ gid h, (gid, h) ∈ g.transitiveGroupsById.bindings ↔ Within g h ∧ h.id = gid :=
      fun gid h => Dict.mem_bindings.trans hg.inPlace.group_eq_some
    have hkeys : (g.transitiveGroupsById.bindings.map Prod.fst).Nodup := by
      rw [Dict.map_fst_bindings]
      exact g.transitiveGroupsById.keys_nodup
    refine ⟨?_, hmem⟩
    refine (List.Nodup.of_map _ hkeys).map_on ?_
    rintro ⟨gid, h⟩ hb ⟨gid', h'⟩ hb' (rfl : h = h')
    rw [← ((hmem gid h).mp hb).2, ← ((hmem gid' h).mp hb').2]
  containsApps := any_transitive.trans exists_values_iff
  containsPods := any_transitive.trans exists_values_iff

/-! ## What is held after a change of the tree -/

section Held

variable {α : Type} {key : α → AbsolutePathId} {own : Own → Keyed key} {m n : PathMap String Own}
  {behavior : NewGroupEnforceRoleBehavior} {path : List String} {f : Own → Own} {a : α}
  {id x : AbsolutePathId}

theorem held_makePath (hfresh : ∀ p, own (fresh behavior p) = ∅) :
    held own (m.makePath (fresh behavior) path) x = held own m x := by
  rw [held, held]
  by_cases hx : x.parent.path <+: path
  · rw [PathMap.makePath_of_leads hx]
    cases m x.parent.path with
    | some o => rfl
    | none =>
      rw [Option.getD_none, Option.bind_some, hfresh]
      rfl
  · rw [PathMap.makePath_of_not_leads hx]

theorem held_graft : held own (PathMap.graft path n m) x =
    if path <+: x.parent.path then held own n x else held own m x :=
  apply_ite (fun o : Option Own => o.bind fun o => (own o).lookup x) _ _ _

theorem held_prune : held own (m.prune path) x =
    if path <+: x.parent.path then none else held own m x :=
  apply_ite (fun o : Option Own => o.bind fun o => (own o).lookup x) _ _ _

theorem held_modify : held own (m.modify path f) x =
    if x.parent.path = path then (m path).bind fun o => (own (f o)).lookup x else held own m x := by
  rw [held]
  split_ifs with hx
  · rw [hx, PathMap.modify_self, Option.bind_map]
    rfl
  · rw [PathMap.modify_of_ne hx, held]

theorem held_modifyBelow : held own (m.modifyBelow path f) x =
    if path <+: x.parent.path then (m x.parent.path).bind fun o => (own (f o)).lookup x
    else held own m x := by
  rw [held, PathMap.modifyBelow]
  split_ifs with hx
  · rw [Option.bind_map]
    rfl
  · rfl

theorem held_modify_of_eq (hf : ∀ o, own (f o) = own o) :
    held own (m.modify path f) x = held own m x := by
  rw [held_modify, held]
  split_ifs with hx
  · simp only [hx, hf]
  · rfl

theorem held_modify_insert (ha : key a = id) (hf : ∀ o, own (f o) = (own o).insert a)
    (hm : (m id.parent.path).isSome) :
    held own (m.modify id.parent.path f) x = if x = id then some a else held own m x := by
  obtain ⟨o, ho⟩ := Option.isSome_iff_exists.mp hm
  rw [held_modify, held]
  split_ifs with hparent hx hx
  · rw [ho, Option.bind_some, hf, Keyed.lookup_insert, ha, if_pos hx]
  · rw [hparent, ho, Option.bind_some, Option.bind_some, hf, Keyed.lookup_insert, ha, if_neg hx]
  · exact absurd (congrArg (fun id => id.parent.path) hx) hparent
  · rfl

theorem held_modify_erase (hf : ∀ o, own (f o) = (own o).erase id) :
    held own (m.modify id.parent.path f) x = if x = id then none else held own m x := by
  rw [held_modify, held]
  split_ifs with hparent hx hx
  · simp only [hf, hx, Keyed.lookup_erase, if_true, Option.bind_fun_none]
  · simp only [hparent, hf, Keyed.lookup_erase, if_neg hx]
  · exact absurd (congrArg (fun id => id.parent.path) hx) hparent
  · rfl

theorem held_dropConflicting (hown : ∀ o, (own o).values ≠ [] → o.HoldsRunSpec) :
    held own (dropConflicting id m) x = held own m x := by
  unfold dropConflicting
  split_ifs with hc
  · rfl
  · rw [held_prune]
    split_ifs with hle
    · rw [held, eq_comm, Option.bind_eq_none_iff]
      intro o ho
      rw [Option.eq_none_iff_forall_ne_some]
      intro a ha
      obtain rfl := Keyed.key_of_lookup ha
      exact hc (.inr ⟨_, o, hle, ho, hown o (List.ne_nil_of_mem (Keyed.mem_values.mpr ha))⟩)
    · rfl

theorem isSome_dropConflicting (h : (m id.parent.path).isSome) :
    (dropConflicting id m id.parent.path).isSome := by
  unfold dropConflicting
  split_ifs with hc
  · exact h
  · rwa [PathMap.prune_of_not_leads]
    intro hle
    have hne : id.path ≠ [] := fun hnil => hc (.inl (by rw [AbsolutePathId.isRoot, hnil]; rfl))
    have hlength := hle.length_le
    have hpos := List.length_pos_of_ne_nil hne
    rw [AbsolutePathId.parent_path, List.length_dropLast] at hlength
    omega

theorem held_put (ha : key a = id) (hfresh : ∀ p, own (fresh behavior p) = ∅)
    (hown : ∀ o, (own o).values ≠ [] → o.HoldsRunSpec)
    (hf : ∀ o, own (f o) = (own o).insert a) :
    held own ((dropConflicting id (m.makePath (fresh behavior) id.parent.path)).modify
      id.parent.path f) x = if x = id then some a else held own m x := by
  have hmade : (m.makePath (fresh behavior) id.parent.path id.parent.path).isSome := by
    rw [PathMap.makePath_of_leads (List.prefix_refl _)]
    rfl
  rw [held_modify_insert ha hf (isSome_dropConflicting hmade), held_dropConflicting hown,
    held_makePath hfresh]

end Held

/-- An app that is there is replaced, and no other app changes. -/
theorem Rooted.app_updateApp {root : RootGroup} (hr : root.Rooted)
    (behavior : NewGroupEnforceRoleBehavior) (new : AppDefinition) (version : Timestamp) :
    ∃ result, root.updateApp behavior new.id (fun _ => new) version = some result ∧
      result.Rooted ∧ ∀ x, result.app x = if x = new.id then some new else root.app x := by
  obtain ⟨result, hresult, hrooted, hcontents, -⟩ :
      Yields (root.updateApp behavior new.id (fun _ => new) version) _ version :=
    hr.yields_updateApp behavior rfl version
  refine ⟨result, hresult, hrooted, fun x => ?_⟩
  rw [hrooted.inPlace.app_eq, hr.inPlace.app_eq, hcontents]
  exact held_put rfl (fun _ => rfl) (fun _ h => .inl h) fun _ => rfl

end Group

/-! ## Flat maps -/

/-- Apps and pods by their ids. -/
@[ext]
structure Definitions where
  apps : AbsolutePathId → Option AppDefinition
  pods : AbsolutePathId → Option PodDefinition

/-- Other definitions of all that is below the path. -/
def Definitions.replaceBelow (gid : AbsolutePathId) (new old : Definitions) : Definitions where
  apps id := if gid.path <+: id.parent.path then new.apps id else old.apps id
  pods id := if gid.path <+: id.parent.path then new.pods id else old.pods id

def Group.definitions (g : Group) : Definitions := ⟨g.app, g.pod⟩

namespace Edit

open Marathon.Group

/-- What an operation does to flat maps. -/
def definitions (root : RootGroup) (behavior : NewGroupEnforceRoleBehavior) : Edit → Definitions
  | putGroup newGroup _ => newGroup.definitions.replaceBelow newGroup.id root.definitions
  | makeGroup _ => root.definitions
  | updateTransitiveApps groupId app _ =>
    Definitions.replaceBelow groupId ⟨fun id => (root.app id).map app.run, root.pod⟩
      root.definitions
  | updateApps groupId apps _ =>
    { root.definitions with
      apps := fun id =>
        if id.parent = groupId then (apps (root.groupOrNew behavior groupId).apps).lookup id
        else root.app id }
  | updateDependencies _ _ _ => root.definitions
  | updateApp appId fn _ =>
    { root.definitions with
      apps := fun id => if id = appId then some (fn (root.app appId)) else root.app id }
  | updatePod podId fn _ =>
    { root.definitions with
      pods := fun id => if id = podId then some (fn (root.pod podId)) else root.pod id }
  | updateGroup groupId fn =>
    (fn (root.group groupId)).definitions.replaceBelow groupId root.definitions
  | updateVersion _ => root.definitions
  | removeGroup groupId _ =>
    Definitions.replaceBelow groupId ⟨fun _ => none, fun _ => none⟩ root.definitions
  | removeApp appId _ =>
    { root.definitions with apps := fun id => if id = appId then none else root.app id }
  | removePod podId _ =>
    { root.definitions with pods := fun id => if id = podId then none else root.pod id }

section Agreement

variable {root result : RootGroup} {behavior : NewGroupEnforceRoleBehavior} {edit : Edit}

theorem held_contents (hr : root.Rooted) (hkeeps : edit.KeepsIds root behavior)
    (id : AbsolutePathId) :
    held Own.apps (edit.contents root behavior) id = (edit.definitions root behavior).apps id ∧
      held Own.pods (edit.contents root behavior) id =
        (edit.definitions root behavior).pods id := by
  have happ : held Own.apps root.contents id = root.app id := (hr.inPlace.app_eq id).symm
  have hpod : held Own.pods root.contents id = root.pod id := (hr.inPlace.pod_eq id).symm
  have hmadeApp : ∀ path : List String,
      held Own.apps (root.contents.makePath (fresh behavior) path) id = root.app id := fun path =>
    (held_makePath fun _ => rfl).trans happ
  have hmadePod : ∀ path : List String,
      held Own.pods (root.contents.makePath (fresh behavior) path) id = root.pod id := fun path =>
    (held_makePath fun _ => rfl).trans hpod
  cases edit with
  | putGroup newGroup version =>
    rw [contents, held_graft, held_graft, hmadeApp, hmadePod, ← hkeeps.app_eq, ← hkeeps.pod_eq]
    exact ⟨rfl, rfl⟩
  | makeGroup groupId => exact ⟨hmadeApp _, hmadePod _⟩
  | updateTransitiveApps groupId app version =>
    have hmade : ∀ path : List String,
        (root.contents.makePath (fresh behavior) path id.parent.path).bind (fun o =>
          (o.apps.map app.run app.id_run).lookup id) = (root.app id).map app.run := by
      intro path
      rw [← hmadeApp path, held, Option.map_bind]
      simp only [Keyed.lookup_map]
      rfl
    refine ⟨?_, ?_⟩
    · rw [contents, held_modifyBelow, hmadeApp, hmade]
      rfl
    · rw [contents, held_modifyBelow, hmadePod]
      exact if_congr Iff.rfl (hmadePod _) rfl
  | updateApps groupId apps version =>
    have hparent : id.parent.path = groupId.path ↔ id.parent = groupId :=
      ⟨congrArg AbsolutePathId.mk, congrArg AbsolutePathId.path⟩
    refine ⟨?_, (held_modify_of_eq ?_).trans (hmadePod _)⟩
    · rw [contents, held_modify, hmadeApp, PathMap.makePath_of_leads (List.prefix_refl _),
        ← own_groupOrNew, Option.bind_some]
      simp only [hparent]
      rfl
    · exact fun _ => rfl
  | updateDependencies groupId dependencies version =>
    refine ⟨(held_modify_of_eq ?_).trans (hmadeApp _), (held_modify_of_eq ?_).trans (hmadePod _)⟩
    · exact fun _ => rfl
    · exact fun _ => rfl
  | updateApp appId fn version =>
    refine ⟨?_, (held_modify_of_eq ?_).trans ?_⟩
    · rw [contents, held_put hkeeps (fun _ => rfl) (fun _ h => .inl h) fun _ => rfl, happ]
      rfl
    · exact fun _ => rfl
    · exact (held_dropConflicting fun _ h => .inr h).trans (hmadePod _)
  | updatePod podId fn version =>
    refine ⟨(held_modify_of_eq ?_).trans ?_, ?_⟩
    · exact fun _ => rfl
    · exact (held_dropConflicting fun _ h => .inl h).trans (hmadeApp _)
    · rw [contents, held_put hkeeps (fun _ => rfl) (fun _ h => .inr h) fun _ => rfl, hpod]
      rfl
  | updateGroup groupId fn =>
    obtain ⟨-, hin⟩ := hkeeps
    rw [contents, held_graft, held_graft, hmadeApp, hmadePod, ← hin.app_eq, ← hin.pod_eq]
    exact ⟨rfl, rfl⟩
  | updateVersion version => exact ⟨happ, hpod⟩
  | removeGroup groupId version =>
    rw [contents, held_prune, held_prune, happ, hpod]
    exact ⟨rfl, rfl⟩
  | removeApp appId version =>
    refine ⟨?_, (held_modify_of_eq ?_).trans hpod⟩
    · rw [contents, held_modify_erase fun _ => rfl, happ]
      rfl
    · exact fun _ => rfl
  | removePod podId version =>
    refine ⟨(held_modify_of_eq ?_).trans happ, ?_⟩
    · exact fun _ => rfl
    · rw [contents, held_modify_erase fun _ => rfl, hpod]
      rfl

theorem definitions_run (hr : root.Rooted) (hkeeps : edit.KeepsIds root behavior)
    (hresult : edit.run root behavior = some result) :
    result.Rooted ∧ result.definitions = edit.definitions root behavior := by
  by_cases hsame : ∃ groupId, edit = makeGroup groupId ∧ (root.group groupId).isSome
  · obtain ⟨groupId, rfl, hsome⟩ := hsame
    rw [run_makeGroup_of_isSome hsome] at hresult
    cases hresult
    exact ⟨hr, rfl⟩
  · have hyields : Yields (edit.run root behavior) (edit.contents root behavior)
        (edit.version root) := by
      refine yields_run hr behavior edit hkeeps ?_ hsame
      rintro ⟨version, rfl⟩
      cases hresult
    obtain ⟨_, hrun, hrooted, hcontents, -⟩ := hyields
    cases hresult.symm.trans hrun
    have hheld := held_contents hr hkeeps
    refine ⟨hrooted, Definitions.ext (funext fun id => ?_) (funext fun id => ?_)⟩
    · exact (hrooted.inPlace.app_eq id).trans (hcontents ▸ (hheld id).1)
    · exact (hrooted.inPlace.pod_eq id).trans (hcontents ▸ (hheld id).2)

end Agreement

/-- Every lookup and enumeration of a well-formed group describes the tree. The result of an
operation on a well-formed root group, if there is one, has the definitions that the operation
leaves in the flat maps. -/
theorem lookups_agree {g : Group} (hg : g.Coherent) :
    g.Described ∧ ∀ (behavior : NewGroupEnforceRoleBehavior) (edit : Edit) (result : RootGroup),
      g.id = .root → edit.KeepsIds g behavior → edit.run g behavior = some result →
        result.Rooted ∧ result.definitions = edit.definitions g behavior :=
  ⟨hg.described, fun _ _ _ hroot hkeeps hresult =>
    definitions_run ⟨hroot, hg.inPlace⟩ hkeeps hresult⟩

theorem lookups_agree_twoGroups :
    twoGroups.Described ∧ ∃ result, prodApp.run twoGroups .off = some result ∧
      result.definitions = prodApp.definitions twoGroups .off := by
  have hvalid : twoGroups.ValidRoot :=
    validRoot_plainRoot (by decide) (by decide) (by decide) (by decide)
  have hboth := lookups_agree ⟨hvalid.inPlace, hvalid.noAppsAndPodsWithSameId⟩
  obtain ⟨result, hresult⟩ : ∃ result, prodApp.run twoGroups .off = some result := ⟨_, rfl⟩
  exact ⟨hboth.1, result, hresult, (hboth.2 .off prodApp result rfl rfl hresult).2⟩

end Edit

end Marathon
