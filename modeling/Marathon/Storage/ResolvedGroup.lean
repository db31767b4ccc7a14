import Marathon.State.RootGroup
import Marathon.Storage.GroupDefinition

/-!
# Resolving a stored group

To load a root its apps and pods are read at the versions that the stored group names, and
what the repositories do not have is left out. A well-formed root comes back from its stored
group; where versions are missing the same root comes back without these apps and pods.
-/

namespace Marathon

open Lib PathId

namespace Group

/-- Every id in the group, in the groups below it and in their dependencies is a valid path. -/
structure ValidPaths (root : Group) : Prop where
  id : ∀ g, Within root g → validPathChars g.id
  apps : ∀ g, Within root g → ∀ id ∈ g.apps.keys, validPathChars id
  pods : ∀ g, Within root g → ∀ id ∈ g.pods.keys, validPathChars id
  dependencies : ∀ g, Within root g → ∀ id ∈ g.dependencies, validPathChars id

theorem ValidPaths.of_within {g h : Group} (hg : g.ValidPaths) (hw : Within g h) :
    h.ValidPaths where
  id := fun k hk => hg.id k (hw.trans hk)
  apps := fun k hk => hg.apps k (hw.trans hk)
  pods := fun k hk => hg.pods k (hw.trans hk)
  dependencies := fun k hk => hg.dependencies k (hw.trans hk)

/-! ## A group without some of its apps and pods -/

section Keep

variable (hasApp : AppDefinition → Bool) (hasPod : PodDefinition → Bool)

mutual

/-- The group with those of its apps and pods, at any depth, that meet the conditions. -/
def keep : Group → Group
  | ⟨id, apps, pods, groupsById, dependencies, version, enforceRole⟩ =>
    { id := id
      apps := apps.retain hasApp
      pods := pods.retain hasPod
      groupsById := keepEntries groupsById
      dependencies := dependencies
      version := version
      enforceRole := enforceRole }

def keepEntries : List (AbsolutePathId × Group) → List (AbsolutePathId × Group)
  | [] => []
  | entry :: entries => keepEntry entry :: keepEntries entries

def keepEntry : AbsolutePathId × Group → AbsolutePathId × Group
  | (id, group) => (id, keep group)

end

theorem keepEntries_eq (entries : List (AbsolutePathId × Group)) :
    keepEntries hasApp hasPod entries = entries.map fun e => (e.1, keep hasApp hasPod e.2) := by
  induction entries with
  | nil => rfl
  | cons e entries ih => rw [keepEntries, ih, List.map_cons, keepEntry]

@[simp]
theorem id_keep (g : Group) : (g.keep hasApp hasPod).id = g.id := by
  obtain ⟨id, apps, pods, groupsById, dependencies, version, enforceRole⟩ := g
  rw [keep]

end Keep

theorem keep_true (g : Group) : g.keep (fun _ => true) (fun _ => true) = g := by
  induction g using Group.induction with
  | h g ih =>
    obtain ⟨id, apps, pods, groupsById, dependencies, version, enforceRole⟩ := g
    have hentries : keepEntries (fun _ => true) (fun _ => true) groupsById = groupsById := by
      rw [keepEntries_eq]
      conv_rhs => rw [← List.map_id groupsById]
      apply List.map_congr_left
      intro e he
      rw [ih e he]
      rfl
    rw [keep, Keyed.retain_true, Keyed.retain_true, hentries]

end Group

namespace Storage.StoredGroup

/-! ## Loading -/

section Resolve

/-- The named versions, `none` where there is no such version, or the first failure. -/
def loadAll {V : Type} (getVersion : AbsolutePathId → Timestamp → Except String (Option V))
    (ids : Dict AbsolutePathId Timestamp) : Except String (List (Option V)) :=
  ids.bindings.mapM fun binding => getVersion binding.1 binding.2

/-- The text of the failed `require` for a top-level group that was not migrated. -/
def noEnforceRole (id : AbsolutePathId) : String :=
  "requirement failed: BUG! Top-level group " ++ id.string ++
    " has no defined enforce role filed which should be done by migration."

variable (appVersion : AbsolutePathId → Timestamp → Except String (Option AppDefinition))
  (podVersion : AbsolutePathId → Timestamp → Except String (Option PodDefinition))

mutual

/-- The group with its apps and pods, read with `getVersion` of the two repositories. -/
def resolve : StoredGroup → Except String Group
  | ⟨id, appIds, podIds, storedGroups, dependencies, version, enforceRole⟩ =>
    if id.isTopLevel && enforceRole.isNone then
      .error (noEnforceRole id)
    else do
      let allApps ← loadAll appVersion appIds
      let allPods ← loadAll podVersion podIds
      let groups ← resolveAll storedGroups
      -- Apps and pods that were not found are left out.
      let apps := Keyed.ofValues AppDefinition.id (allApps.filterMap fun app => app)
      let pods := Keyed.ofValues PodDefinition.id (allPods.filterMap fun pod => pod)
      let groupsById := Dict.ofBindings (groups.map fun group => (group.id, group))
      return Group.apply id apps pods groupsById.bindings dependencies version enforceRole

def resolveAll : List StoredGroup → Except String (List Group)
  | [] => .ok []
  | group :: groups => do
    let group ← resolve group
    let groups ← resolveAll groups
    return group :: groups

end

end Resolve

theorem loadAll_mapWithKey {V : Type} {key : V → AbsolutePathId} {version : V → Timestamp}
    {getVersion : AbsolutePathId → Timestamp → Except String (Option V)} {found : V → Bool}
    {own : Keyed key}
    (h : ∀ v ∈ own.values, getVersion (key v) (version v) = .ok (if found v then some v else none)) :
    loadAll getVersion (own.dict.mapWithKey fun _ v => version v) =
      .ok (own.values.map fun v => if found v then some v else none) := by
  have hlist : ∀ values : List V,
      (∀ v ∈ values, getVersion (key v) (version v) = .ok (if found v then some v else none)) →
        (values.map fun v => (key v, version v)).mapM (fun b => getVersion b.1 b.2) =
          .ok (values.map fun v => if found v then some v else none) := by
    intro values
    induction values with
    | nil => exact fun _ => rfl
    | cons v values ih =>
      intro hv
      have htail := ih fun w hw => hv w (List.mem_cons_of_mem _ hw)
      rw [List.map_cons, List.mapM_cons, hv v List.mem_cons_self, htail]
      rfl
  rw [loadAll, Dict.bindings_mapWithKey, Keyed.bindings_dict, List.map_map]
  exact hlist own.values h

theorem filterMap_found {V : Type} {found : V → Bool} (values : List V) :
    (values.map fun v => if found v then some v else none).filterMap (fun v => v) =
      values.filter found := by
  induction values with
  | nil => rfl
  | cons v values ih =>
    rw [List.map_cons, List.filterMap_cons, List.filter_cons, ih]
    cases found v <;> rfl

theorem ofEntries_eq (entries : List (AbsolutePathId × Group)) :
    ofEntries entries = entries.map fun e => ofGroup e.2 := by
  induction entries with
  | nil => rfl
  | cons e entries ih => rw [ofEntries, ih, List.map_cons, ofEntry]

section OfGroup

variable {appVersion : AbsolutePathId → Timestamp → Except String (Option AppDefinition)}
  {podVersion : AbsolutePathId → Timestamp → Except String (Option PodDefinition)}
  {hasApp : AppDefinition → Bool} {hasPod : PodDefinition → Bool}

theorem resolveAll_map {α : Type} {stored : α → StoredGroup} {group : α → Group} {l : List α}
    (h : ∀ a ∈ l, resolve appVersion podVersion (stored a) = .ok (group a)) :
    resolveAll appVersion podVersion (l.map stored) = .ok (l.map group) := by
  induction l with
  | nil => rfl
  | cons a l ih =>
    have htail := ih fun b hb => h b (List.mem_cons_of_mem _ hb)
    rw [List.map_cons, resolveAll, h a List.mem_cons_self, htail]
    rfl

theorem resolve_ofGroup {g : Group} (hg : g.InPlace)
    (happs : ∀ app ∈ g.transitiveApps,
      appVersion app.id app.version = .ok (if hasApp app then some app else none))
    (hpods : ∀ pod ∈ g.transitivePods,
      podVersion pod.id pod.version = .ok (if hasPod pod then some pod else none)) :
    resolve appVersion podVersion (ofGroup g) = .ok (g.keep hasApp hasPod) := by
  induction g using Group.induction with
  | h g ih =>
    have hchild : ∀ e ∈ g.groupsById,
        resolve appVersion podVersion (ofGroup e.2) = .ok (e.2.keep hasApp hasPod) := by
      intro e he
      have hw : Group.Within g e.2 := .child he (.refl _)
      refine ih e he (hg.child he) (fun app happ => happs app ?_) (fun pod hpod => hpods pod ?_)
      · exact Group.transitiveApps_subset hw happ
      · obtain ⟨k, hk, hl⟩ := Group.mem_transitivePods.mp hpod
        exact Group.mem_transitivePods.mpr ⟨k, hw.trans hk, hl⟩
    have hown : loadAll appVersion (g.apps.dict.mapWithKey fun _ app => app.version) =
        .ok (g.apps.values.map fun app => if hasApp app then some app else none) :=
      loadAll_mapWithKey fun app happ => happs app
        (Group.mem_transitiveApps.mpr ⟨g, .refl g, Keyed.mem_values.mp happ⟩)
    have hown' : loadAll podVersion (g.pods.dict.mapWithKey fun _ pod => pod.version) =
        .ok (g.pods.values.map fun pod => if hasPod pod then some pod else none) :=
      loadAll_mapWithKey fun pod hpod => hpods pod
        (Group.mem_transitivePods.mpr ⟨g, .refl g, Keyed.mem_values.mp hpod⟩)
    have hids : g.groupsById.map (fun e => (e.2.id, e.2.keep hasApp hasPod)) =
        g.groupsById.map fun e => (e.1, e.2.keep hasApp hasPod) :=
      List.map_congr_left fun e he => by rw [(hg.entry he).1]
    have hkeys := hg.keys_nodup
    have henforce := hg.isSome_enforceRole
    obtain ⟨id, apps, pods, groupsById, dependencies, version, enforceRole⟩ := g
    have hall : resolveAll appVersion podVersion (ofEntries groupsById) =
        .ok (groupsById.map fun e => e.2.keep hasApp hasPod) := by
      rw [ofEntries_eq]
      exact resolveAll_map hchild
    have hrole : (id.isTopLevel && enforceRole.isNone) = false := by
      rw [← henforce]
      cases enforceRole <;> rfl
    have hgroups : (Dict.ofBindings ((groupsById.map fun e => e.2.keep hasApp hasPod).map
        fun group => (group.id, group))).bindings = Group.keepEntries hasApp hasPod groupsById := by
      have hpairs : (groupsById.map fun e => e.2.keep hasApp hasPod).map
          (fun group => (group.id, group)) =
            groupsById.map fun e => (e.1, e.2.keep hasApp hasPod) := by
        rw [List.map_map, ← hids]
        apply List.map_congr_left
        intro e _
        rw [Function.comp_apply, Group.id_keep]
      have hnodup : ((groupsById.map fun e => (e.1, e.2.keep hasApp hasPod)).map Prod.fst).Nodup := by
        rw [List.map_map]
        exact hkeys
      rw [hpairs, Dict.bindings_ofBindings hnodup, Group.keepEntries_eq]
    rw [ofGroup, resolve, hrole, if_neg Bool.false_ne_true, hown, hown', hall, Group.keep]
    simp only [bind, Except.bind, pure, Except.pure, filterMap_found, Keyed.ofValues_filter, hgroups,
      Group.apply_of_isTopLevel henforce]

end OfGroup

/-! ## Root groups come back -/

theorem validPaths_ofGroup {g : Group} (h : g.ValidPaths) : (ofGroup g).ValidPaths := by
  induction g using Group.induction with
  | h g ih =>
    have hchild : ∀ e ∈ g.groupsById, (ofGroup e.2).ValidPaths := fun e he =>
      ih e he (h.of_within (.child he (.refl _)))
    have hid := h.id g (.refl g)
    have happs := h.apps g (.refl g)
    have hpods := h.pods g (.refl g)
    have hdependencies := h.dependencies g (.refl g)
    obtain ⟨id, apps, pods, groupsById, dependencies, version, enforceRole⟩ := g
    rw [ofGroup, ofEntries_eq]
    apply ValidPaths.mk
    · exact hid
    · intro id hmem
      rw [Dict.keys_mapWithKey] at hmem
      exact happs id hmem
    · intro id hmem
      rw [Dict.keys_mapWithKey] at hmem
      exact hpods id hmem
    · exact hdependencies
    · intro child hmem
      obtain ⟨e, he, rfl⟩ := List.mem_map.mp hmem
      exact hchild e he

/-- A root group in place with valid paths comes back: its stored group from the message, the
group itself where the repositories have its apps and pods, and where some of them are missing
the group without these. -/
theorem comes_back {root : RootGroup} (hplace : root.InPlace) (hpaths : root.ValidPaths) :
    ofProto (toProto (ofGroup root)) = some (ofGroup root) ∧
      (∀ (appVersion : AbsolutePathId → Timestamp → Except String (Option AppDefinition))
        (podVersion : AbsolutePathId → Timestamp → Except String (Option PodDefinition)),
        (∀ app ∈ root.transitiveApps, appVersion app.id app.version = .ok (some app)) →
          (∀ pod ∈ root.transitivePods, podVersion pod.id pod.version = .ok (some pod)) →
            resolve appVersion podVersion (ofGroup root) = .ok root) ∧
      ∀ (appVersion : AbsolutePathId → Timestamp → Except String (Option AppDefinition))
        (podVersion : AbsolutePathId → Timestamp → Except String (Option PodDefinition))
        (hasApp : AppDefinition → Bool) (hasPod : PodDefinition → Bool),
        (∀ app ∈ root.transitiveApps,
          appVersion app.id app.version = .ok (if hasApp app then some app else none)) →
          (∀ pod ∈ root.transitivePods,
            podVersion pod.id pod.version = .ok (if hasPod pod then some pod else none)) →
            resolve appVersion podVersion (ofGroup root) = .ok (root.keep hasApp hasPod) := by
  refine ⟨ofProto_toProto (validPaths_ofGroup hpaths), ?_, ?_⟩
  · intro appVersion podVersion happs hpods
    have hall : resolve appVersion podVersion (ofGroup root) =
        .ok (root.keep (fun _ => true) fun _ => true) := resolve_ofGroup hplace happs hpods
    rw [hall, Group.keep_true]
  · intro appVersion podVersion hasApp hasPod happs hpods
    exact resolve_ofGroup hplace happs hpods

/-- A root group with one app in a group that depends on another one. -/
def webRoot : RootGroup :=
  plainRoot [plainGroup ⟨["prod"]⟩ [plainApp ⟨["prod", "web-1.eu"]⟩ ∅] [] {⟨["db"]⟩},
    plainGroup ⟨["db"]⟩ [] [] ∅]

theorem comes_back_webRoot :
    ofProto (toProto (ofGroup webRoot)) = some (ofGroup webRoot) ∧
      resolve (fun id _ => .ok (some (plainApp id ∅))) (fun _ _ => .ok none) (ofGroup webRoot) =
        .ok webRoot ∧
      resolve (fun _ _ => .ok none) (fun _ _ => .ok none) (ofGroup webRoot) =
        .ok (webRoot.keep (fun _ => false) fun _ => false) := by
  have hplace : webRoot.InPlace :=
    (Group.validRoot_plainRoot (by decide) (by decide) (by decide) (by decide)).inPlace
  have hpaths : webRoot.ValidPaths := by
    have hall : ∀ g, Group.Within webRoot g → (validPathChars g.id = true ∧
        (∀ id ∈ g.apps.keys, validPathChars id) ∧ (∀ id ∈ g.pods.keys, validPathChars id) ∧
          ∀ id ∈ g.dependencies, validPathChars id) := by
      intro g hw
      rcases Group.within_plainRoot (by decide) hw with rfl | hg
      · decide
      · simp only [List.mem_cons, List.not_mem_nil, or_false] at hg
        rcases hg with rfl | rfl
        · decide
        · decide
    exact ⟨fun g hw => (hall g hw).1, fun g hw => (hall g hw).2.1, fun g hw => (hall g hw).2.2.1,
      fun g hw => (hall g hw).2.2.2⟩
  have hback := comes_back hplace hpaths
  have happs : webRoot.transitiveApps = [plainApp ⟨["prod", "web-1.eu"]⟩ ∅] := rfl
  have hpods : webRoot.transitivePods = [] := rfl
  refine ⟨hback.1, hback.2.1 _ _ ?_ ?_, hback.2.2 _ _ _ _ ?_ ?_⟩
  · intro app happ
    rw [happs, List.mem_singleton] at happ
    rw [happ]
    rfl
  · intro pod hpod
    rw [hpods] at hpod
    cases hpod
  · intro app _
    rfl
  · intro pod _
    rfl

end Storage.StoredGroup

end Marathon
