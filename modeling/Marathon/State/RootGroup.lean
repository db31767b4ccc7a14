import Marathon.State.Group

/-!
# Looking things up in a group

A group finds its child groups by their path, and an app or a pod through the group that
is its parent. Where everything stands in its place, what is found under an id is
exactly what is held at any depth with that id.
-/

namespace Marathon

open Lib

variable {e : AbsolutePathId × Group}

namespace Group

/-! ## Lookups -/

/-- The child groups at any depth, under the keys they stand under. -/
def transitiveGroups (group : Group) : List (AbsolutePathId × Group) :=
  group.transitive groupsById

def transitiveGroupsById (group : Group) : Dict AbsolutePathId Group :=
  Dict.insertAll ((∅ : Dict AbsolutePathId Group).insert group.id group) group.transitiveGroups

/-- The group itself or a child group, by its path. -/
def group (group : Group) (gid : AbsolutePathId) : Option Group :=
  group.transitiveGroupsById.lookup gid

def app (group : Group) (appId : AbsolutePathId) : Option AppDefinition :=
  (group.apps.lookup appId).or ((group.group appId.parent).bind fun g => g.apps.lookup appId)

def pod (group : Group) (podId : AbsolutePathId) : Option PodDefinition :=
  (group.pods.lookup podId).or ((group.group podId.parent).bind fun g => g.pods.lookup podId)

def runSpec (group : Group) (id : AbsolutePathId) : Option RunSpec :=
  if (group.app id).isSome then (group.app id).map .app else (group.pod id).map .pod

/-- The source's `exists`. -/
def containsRunSpec (group : Group) (id : AbsolutePathId) : Bool := (group.runSpec id).isSome

def transitiveAppIds (group : Group) : List AbsolutePathId := group.transitive fun g => g.apps.keys

def transitivePodIds (group : Group) : List AbsolutePathId := group.transitive fun g => g.pods.keys

def transitiveRunSpecs (group : Group) : List RunSpec :=
  group.transitiveApps.map .app ++ group.transitivePods.map .pod

def transitiveRunSpecIds (group : Group) : List AbsolutePathId :=
  group.transitiveAppIds ++ group.transitivePodIds

/-! ## The groups within a group -/

theorem sizeOf_lt_of_mem_groupsById {g : Group}
    (he : e ∈ g.groupsById) : sizeOf e.2 < sizeOf g := by
  have hlist := List.sizeOf_lt_of_mem he
  obtain ⟨id, child⟩ := e
  obtain ⟨id, apps, pods, groupsById, dependencies, version, enforceRole⟩ := g
  simp only [Prod.mk.sizeOf_spec, mk.sizeOf_spec] at hlist ⊢
  omega

/-- What holds of a group whenever it holds of its child groups holds of every group. -/
@[elab_as_elim]
theorem induction {motive : Group → Prop}
    (h : ∀ g : Group, (∀ e ∈ g.groupsById, motive e.2) → motive g) (g : Group) : motive g :=
  h g fun e he =>
    have : sizeOf e.2 < sizeOf g := sizeOf_lt_of_mem_groupsById he
    induction h e.2
termination_by sizeOf g

/-- `h` is `g` itself or a child group of it, at any depth. -/
inductive Within : Group → Group → Prop
  | refl (g : Group) : Within g g
  | child {g h : Group} {e : AbsolutePathId × Group} (he : e ∈ g.groupsById)
      (hw : Within e.2 h) : Within g h

theorem Within.trans {g h k : Group} (hgh : Within g h) (hhk : Within h k) : Within g k := by
  induction hgh with
  | refl => exact hhk
  | child he _ ih => exact .child he (ih hhk)

theorem mem_transitive {α : Type} {own : Group → List α} {g : Group} {a : α} :
    a ∈ g.transitive own ↔ ∃ h, Within g h ∧ a ∈ own h := by
  induction g using Group.induction with
  | h g ih =>
    rw [transitive_eq, List.mem_append, List.mem_flatMap]
    constructor
    · rintro (ha | ⟨e, he, ha⟩)
      · exact ⟨g, .refl g, ha⟩
      · obtain ⟨h, hw, ha⟩ := (ih e he).mp ha
        exact ⟨h, .child he hw, ha⟩
    · rintro ⟨h, hw, ha⟩
      cases hw with
      | refl => exact .inl ha
      | child he hw => exact .inr ⟨_, he, (ih _ he).mpr ⟨h, hw, ha⟩⟩

theorem map_transitive {α β : Type} {own : Group → List α} {own' : Group → List β} {f : α → β}
    (h : ∀ g, (own g).map f = own' g) {g : Group} :
    (g.transitive own).map f = g.transitive own' := by
  induction g using Group.induction with
  | h g ih =>
    rw [transitive_eq, transitive_eq, List.map_append, h, List.map_flatMap]
    exact congrArg (own' g ++ ·) (List.flatMap_congr ih)

/-- What is found by a path is within the group, under whatever key. -/
theorem within_of_group {g h : Group} {gid : AbsolutePathId} (hl : g.group gid = some h) :
    Within g h := by
  rcases Dict.lookup_insertAll_eq_some hl with hself | hmem
  · rcases Dict.lookup_insert_eq_some.mp hself with ⟨-, rfl⟩ | ⟨-, hempty⟩
    · exact .refl g
    · cases hempty
  · obtain ⟨k, hw, he⟩ := mem_transitive.mp hmem
    exact hw.trans (.child he (.refl _))

section Held

variable {α : Type} {key : α → AbsolutePathId} (own : Group → Keyed key) {g : Group}

theorem mem_transitive_values {a : α} :
    (a ∈ g.transitive fun h => (own h).values) ↔
      ∃ h, Within g h ∧ (own h).lookup (key a) = some a := by
  simp only [mem_transitive, Keyed.mem_values]

theorem mem_transitive_keys {id : AbsolutePathId} :
    (id ∈ g.transitive fun h => (own h).keys) ↔
      ∃ a ∈ g.transitive fun h => (own h).values, key a = id := by
  simp only [mem_transitive, Keyed.keys_eq, List.mem_map]
  constructor
  · rintro ⟨h, hw, a, ha, rfl⟩
    exact ⟨a, ⟨h, hw, ha⟩, rfl⟩
  · rintro ⟨a, ⟨h, hw, ha⟩, rfl⟩
    exact ⟨h, hw, a, ha, rfl⟩

theorem mem_transitive_of_find {id : AbsolutePathId} {a : α}
    (hl : ((own g).lookup id).or ((g.group id.parent).bind fun h => (own h).lookup id) = some a) :
    (a ∈ g.transitive fun h => (own h).values) ∧ key a = id := by
  have hheld : ∀ h, Within g h → (own h).lookup id = some a →
      (a ∈ g.transitive fun h => (own h).values) ∧ key a = id := by
    intro h hw ha
    obtain rfl := Keyed.key_of_lookup ha
    exact ⟨(mem_transitive_values own).mpr ⟨h, hw, ha⟩, rfl⟩
  rcases Option.or_eq_some_iff.mp hl with hself | ⟨-, hparent⟩
  · exact hheld g (.refl g) hself
  · obtain ⟨h, hgroup, ha⟩ := Option.bind_eq_some_iff.mp hparent
    exact hheld h (within_of_group hgroup) ha

end Held

theorem mem_transitiveApps {g : Group} {app : AppDefinition} :
    app ∈ g.transitiveApps ↔ ∃ h, Within g h ∧ h.apps.lookup app.id = some app :=
  mem_transitive_values apps

theorem mem_transitivePods {g : Group} {pod : PodDefinition} :
    pod ∈ g.transitivePods ↔ ∃ h, Within g h ∧ h.pods.lookup pod.id = some pod :=
  mem_transitive_values pods

theorem transitiveApps_subset {g h : Group} (hw : Within g h) {app : AppDefinition}
    (happ : app ∈ h.transitiveApps) : app ∈ g.transitiveApps := by
  obtain ⟨k, hk, hl⟩ := mem_transitiveApps.mp happ
  exact mem_transitiveApps.mpr ⟨k, hw.trans hk, hl⟩

@[simp]
theorem app_mem_transitiveRunSpecs {g : Group} {app : AppDefinition} :
    .app app ∈ g.transitiveRunSpecs ↔ app ∈ g.transitiveApps := by
  simp [transitiveRunSpecs]

@[simp]
theorem pod_mem_transitiveRunSpecs {g : Group} {pod : PodDefinition} :
    .pod pod ∈ g.transitiveRunSpecs ↔ pod ∈ g.transitivePods := by
  simp [transitiveRunSpecs]

theorem mem_transitiveAppIds {g : Group} {id : AbsolutePathId} :
    id ∈ g.transitiveAppIds ↔ ∃ app ∈ g.transitiveApps, app.id = id :=
  mem_transitive_keys apps

theorem mem_transitivePodIds {g : Group} {id : AbsolutePathId} :
    id ∈ g.transitivePodIds ↔ ∃ pod ∈ g.transitivePods, pod.id = id :=
  mem_transitive_keys pods

theorem map_id_transitiveApps (g : Group) : g.transitiveApps.map AppDefinition.id = g.transitiveAppIds :=
  map_transitive fun _ => (Keyed.keys_eq _).symm

theorem map_id_transitivePods (g : Group) : g.transitivePods.map PodDefinition.id = g.transitivePodIds :=
  map_transitive fun _ => (Keyed.keys_eq _).symm

theorem mem_transitiveApps_of_app {g : Group} {id : AbsolutePathId} {app : AppDefinition}
    (hl : g.app id = some app) : app ∈ g.transitiveApps ∧ app.id = id :=
  mem_transitive_of_find apps hl

theorem mem_transitivePods_of_pod {g : Group} {id : AbsolutePathId} {pod : PodDefinition}
    (hl : g.pod id = some pod) : pod ∈ g.transitivePods ∧ pod.id = id :=
  mem_transitive_of_find pods hl

theorem mem_transitiveRunSpecs_of_runSpec {g : Group} {id : AbsolutePathId} {spec : RunSpec}
    (hl : g.runSpec id = some spec) : spec ∈ g.transitiveRunSpecs ∧ spec.id = id := by
  rw [runSpec] at hl
  split at hl
  · obtain ⟨app, happ, rfl⟩ := Option.map_eq_some_iff.mp hl
    obtain ⟨hmem, hid⟩ := mem_transitiveApps_of_app happ
    exact ⟨app_mem_transitiveRunSpecs.mpr hmem, hid⟩
  · obtain ⟨pod, hpod, rfl⟩ := Option.map_eq_some_iff.mp hl
    obtain ⟨hmem, hid⟩ := mem_transitivePods_of_pod hpod
    exact ⟨pod_mem_transitiveRunSpecs.mpr hmem, hid⟩

/-! ## Groups in which everything stands in its place -/

/-- Apps, pods and child groups stand below their parent's path, a child group under its
own id, and only a top-level group enforces a role. -/
inductive InPlace : Group → Prop
  | mk {g : Group} (apps : ∀ app ∈ g.apps.values, app.id.parent = g.id)
      (pods : ∀ pod ∈ g.pods.values, pod.id.parent = g.id)
      (keys : (g.groupsById.map Prod.fst).Nodup)
      (entries : ∀ e ∈ g.groupsById, e.1 = e.2.id ∧ e.2.id.isRoot = false ∧ e.2.id.parent = g.id)
      (enforceRole : g.enforceRole.isSome = g.id.isTopLevel)
      (children : ∀ e ∈ g.groupsById, InPlace e.2) : InPlace g

namespace InPlace

variable {g h : Group}

theorem of_within (hg : g.InPlace) (hw : Within g h) : h.InPlace := by
  induction hw with
  | refl => exact hg
  | child he _ ih =>
    obtain ⟨-, -, -, -, -, hchildren⟩ := hg
    exact ih (hchildren _ he)

theorem app_parent (hg : g.InPlace) {id : AbsolutePathId} {app : AppDefinition}
    (hl : g.apps.lookup id = some app) : id.parent = g.id := by
  obtain ⟨happs, -, -, -, -, -⟩ := hg
  obtain rfl := Keyed.key_of_lookup hl
  exact happs app (Keyed.mem_values.mpr hl)

theorem pod_parent (hg : g.InPlace) {id : AbsolutePathId} {pod : PodDefinition}
    (hl : g.pods.lookup id = some pod) : id.parent = g.id := by
  obtain ⟨-, hpods, -, -, -, -⟩ := hg
  obtain rfl := Keyed.key_of_lookup hl
  exact hpods pod (Keyed.mem_values.mpr hl)

theorem keys_nodup (hg : g.InPlace) : (g.groupsById.map Prod.fst).Nodup := by
  obtain ⟨-, -, hkeys, -, -, -⟩ := hg
  exact hkeys

theorem entry (hg : g.InPlace) (he : e ∈ g.groupsById) :
    e.1 = e.2.id ∧ e.2.id.isRoot = false ∧ e.2.id.parent = g.id := by
  obtain ⟨-, -, -, hentries, -, -⟩ := hg
  exact hentries e he

theorem child (hg : g.InPlace) (he : e ∈ g.groupsById) : e.2.InPlace :=
  hg.of_within (.child he (.refl _))

theorem isSome_enforceRole (hg : g.InPlace) : g.enforceRole.isSome = g.id.isTopLevel := by
  obtain ⟨-, -, -, -, henforce, -⟩ := hg
  exact henforce

/-- The path of a child group is that of the group and one segment more. -/
theorem exists_segment (hg : g.InPlace) (he : e ∈ g.groupsById) :
    ∃ segment, e.2.id.path = g.id.path ++ [segment] := by
  obtain ⟨-, hroot, hparent⟩ := hg.entry he
  have hne : e.2.id.path ≠ [] := by
    rintro hnil
    rw [AbsolutePathId.isRoot, hnil] at hroot
    cases hroot
  refine ⟨e.2.id.path.getLast hne, ?_⟩
  rw [← hparent, AbsolutePathId.parent_path, List.dropLast_append_getLast hne]

theorem prefix_of_within (hg : g.InPlace) (hw : Within g h) : g.id.path <+: h.id.path := by
  induction hw with
  | refl => exact List.prefix_refl _
  | child he _ ih =>
    obtain ⟨segment, hsegment⟩ := hg.exists_segment he
    have hchild := ih (hg.child he)
    rw [hsegment] at hchild
    exact (List.prefix_append _ _).trans hchild

theorem length_lt (hg : g.InPlace) (he : e ∈ g.groupsById)
    (hw : Within e.2 h) : g.id.path.length < h.id.path.length := by
  obtain ⟨segment, hsegment⟩ := hg.exists_segment he
  have hlen := ((hg.child he).prefix_of_within hw).length_le
  rw [hsegment, List.length_append, List.length_singleton] at hlen
  omega

/-- Two child groups above or at one path are the same. -/
theorem entry_unique (hg : g.InPlace) {e' : AbsolutePathId × Group} (he : e ∈ g.groupsById)
    (he' : e' ∈ g.groupsById) {path : List String} (h : e.2.id.path <+: path)
    (h' : e'.2.id.path <+: path) : e = e' := by
  obtain ⟨segment, hs⟩ := hg.exists_segment he
  obtain ⟨segment', hs'⟩ := hg.exists_segment he'
  have hlen : e.2.id.path.length = e'.2.id.path.length := by simp [hs, hs']
  have hpath : e.2.id.path = e'.2.id.path :=
    (List.prefix_of_prefix_length_le h h' hlen.le).eq_of_length hlen
  have hkey : e.1 = e'.1 := by
    rw [(hg.entry he).1, (hg.entry he').1]
    exact congrArg AbsolutePathId.mk hpath
  exact List.inj_on_of_nodup_map hg.keys_nodup he he' hkey

/-- No two groups within a group have the same id. -/
theorem unique (hg : g.InPlace) {h' : Group} (hw : Within g h) (hw' : Within g h')
    (hid : h.id = h'.id) : h = h' := by
  induction hw generalizing h' with
  | refl g =>
    cases hw' with
    | refl => rfl
    | child he hw' =>
      have hlt := hg.length_lt he hw'
      rw [hid] at hlt
      omega
  | child he hw ih =>
    cases hw' with
    | refl =>
      have hlt := hg.length_lt he hw
      rw [hid] at hlt
      omega
    | child he' hw' =>
      have hpre := (hg.child he).prefix_of_within hw
      have hpre' := (hg.child he').prefix_of_within hw'
      rw [← hid] at hpre'
      obtain rfl := hg.entry_unique he he' hpre hpre'
      exact ih (hg.child he) hw' hid

theorem mem_transitiveGroups (hg : g.InPlace)
    (he : e ∈ g.groupsById) (hw : Within e.2 h) : (h.id, h) ∈ g.transitiveGroups := by
  have hall : ∀ k k', Within k k' → k.InPlace → k = k' ∨ (k'.id, k') ∈ k.transitiveGroups := by
    intro k k' hk
    induction hk with
    | refl => exact fun _ => .inl rfl
    | @child k h e he _ ih =>
      intro hkp
      right
      rcases ih (hkp.child he) with heq | hmem
      · refine mem_transitive.mpr ⟨k, .refl k, ?_⟩
        rw [← heq, ← (hkp.entry he).1]
        exact he
      · obtain ⟨k', hk', hmem⟩ := mem_transitive.mp hmem
        exact mem_transitive.mpr ⟨k', .child he hk', hmem⟩
  rcases hall g h (.child he hw) hg with rfl | hmem
  · have hlt := hg.length_lt he hw
    omega
  · exact hmem

/-- A path finds the group within that has it as its id. -/
theorem group_eq_some (hg : g.InPlace) {gid : AbsolutePathId} :
    g.group gid = some h ↔ Within g h ∧ h.id = gid := by
  have hkey : ∀ e ∈ g.transitiveGroups, Within g e.2 ∧ e.1 = e.2.id := by
    intro e he
    obtain ⟨k, hw, he⟩ := mem_transitive.mp he
    exact ⟨hw.trans (.child he (.refl _)), ((hg.of_within hw).entry he).1⟩
  constructor
  · intro hl
    rcases Dict.lookup_insertAll_eq_some hl with hself | hmem
    · rcases Dict.lookup_insert_eq_some.mp hself with ⟨rfl, rfl⟩ | ⟨-, hempty⟩
      · exact ⟨.refl g, rfl⟩
      · cases hempty
    · exact ⟨(hkey _ hmem).1, (hkey _ hmem).2.symm⟩
  · rintro ⟨hw, rfl⟩
    cases hw with
    | refl =>
      rw [group, transitiveGroupsById, Dict.lookup_insertAll_of_notMem, AList.lookup_insert]
      intro e he heq
      obtain ⟨k, hwk, hek⟩ := mem_transitive.mp he
      have hlt := (hg.of_within hwk).length_lt hek (.refl _)
      have hle := (hg.prefix_of_within hwk).length_le
      rw [← (hkey e he).2, heq] at hlt
      omega
    | child he hw =>
      obtain ⟨k, hl, hk⟩ := Dict.exists_lookup_insertAll_of_mem
        (d := (∅ : Dict AbsolutePathId Group).insert g.id g) (hg.mem_transitiveGroups he hw)
      have hkk := hkey _ hk
      rw [group, transitiveGroupsById, hl]
      exact congrArg some (hg.unique hkk.1 (.child he hw) hkk.2.symm)

theorem find_eq_some (hg : g.InPlace) {α : Type} {key : α → AbsolutePathId}
    {own : Group → Keyed key} (hown : ∀ {k : Group}, k.InPlace → ∀ {id a},
      (own k).lookup id = some a → id.parent = k.id) {id : AbsolutePathId} {a : α} :
    ((own g).lookup id).or ((g.group id.parent).bind fun k => (own k).lookup id) = some a ↔
      (a ∈ g.transitive fun k => (own k).values) ∧ key a = id := by
  constructor
  · exact mem_transitive_of_find own
  · rintro ⟨ha, rfl⟩
    obtain ⟨h, hw, hl⟩ := (mem_transitive_values own).mp ha
    have hparent : (key a).parent = h.id := hown (hg.of_within hw) hl
    have hfound : g.group (key a).parent = some h := hg.group_eq_some.mpr ⟨hw, hparent.symm⟩
    rw [hfound, Option.bind_some, hl, Option.or_eq_some_iff]
    cases hself : (own g).lookup (key a) with
    | none => exact .inr ⟨rfl, rfl⟩
    | some a' =>
      left
      have heq : g = h := hg.unique (.refl g) hw ((hown hg hself).symm.trans hparent)
      rw [← hself, heq, hl]

theorem app_eq_some (hg : g.InPlace) {id : AbsolutePathId} {app : AppDefinition} :
    g.app id = some app ↔ app ∈ g.transitiveApps ∧ app.id = id :=
  hg.find_eq_some app_parent

theorem pod_eq_some (hg : g.InPlace) {id : AbsolutePathId} {pod : PodDefinition} :
    g.pod id = some pod ↔ pod ∈ g.transitivePods ∧ pod.id = id :=
  hg.find_eq_some pod_parent

/-- Where no app has the id of a pod, a run spec that is held at any depth is found. -/
theorem runSpec_eq_some (hg : g.InPlace) (hsame : ∀ app ∈ g.transitiveApps, g.pod app.id = none)
    {id : AbsolutePathId} {spec : RunSpec} :
    g.runSpec id = some spec ↔ spec ∈ g.transitiveRunSpecs ∧ spec.id = id := by
  constructor
  · exact mem_transitiveRunSpecs_of_runSpec
  · rintro ⟨hmem, rfl⟩
    cases spec with
    | app definition =>
      rw [app_mem_transitiveRunSpecs] at hmem
      have hl : g.app definition.id = some definition :=
        hg.app_eq_some.mpr ⟨hmem, rfl⟩
      rw [RunSpec.id, runSpec, hl, Option.isSome_some, if_pos rfl, Option.map_some]
    | pod definition =>
      rw [pod_mem_transitiveRunSpecs] at hmem
      have hl : g.pod definition.id = some definition :=
        hg.pod_eq_some.mpr ⟨hmem, rfl⟩
      have hnone : g.app definition.id = none := by
        rw [Option.eq_none_iff_forall_ne_some]
        intro a ha
        obtain ⟨ha, hid⟩ := mem_transitiveApps_of_app ha
        have hpod := hsame a ha
        rw [hid, hl] at hpod
        cases hpod
      rw [RunSpec.id, runSpec, hnone, hl, if_neg (by simp), Option.map_some]

theorem nodup_transitive {α : Type} {own : Group → List α} (hg : g.InPlace)
    (hown : ∀ h, Within g h → (own h).Nodup)
    (hone : ∀ h h' a, Within g h → Within g h' → a ∈ own h → a ∈ own h' → h.id = h'.id) :
    (g.transitive own).Nodup := by
  induction g using Group.induction with
  | h g ih =>
    have hlevel : ∀ e ∈ g.groupsById, ∀ a ∈ e.2.transitive own,
        ∃ h, Within e.2 h ∧ a ∈ own h := fun e _ a ha => mem_transitive.mp ha
    rw [transitive_eq, List.nodup_append', List.nodup_flatMap]
    refine ⟨hown g (.refl g), ⟨?_, ?_⟩, ?_⟩
    · intro e he
      exact ih e he (hg.child he) (fun h hw => hown h (.child he hw))
        fun h h' a hw hw' => hone h h' a (.child he hw) (.child he hw')
    · have hpairwise : g.groupsById.Pairwise fun e e' => e.1 ≠ e'.1 :=
        List.pairwise_map.mp hg.keys_nodup
      refine hpairwise.imp_of_mem ?_
      intro e e' he he' hne a ha ha'
      obtain ⟨h, hw, ha⟩ := hlevel e he a ha
      obtain ⟨h', hw', ha'⟩ := hlevel e' he' a ha'
      have hid := hone h h' a (.child he hw) (.child he' hw') ha ha'
      have hpre := (hg.child he).prefix_of_within hw
      have hpre' := (hg.child he').prefix_of_within hw'
      rw [← hid] at hpre'
      exact hne (congrArg Prod.fst (hg.entry_unique he he' hpre hpre'))
    · intro a ha ha'
      obtain ⟨e, he, ha'⟩ := List.mem_flatMap.mp ha'
      obtain ⟨h, hw, ha'⟩ := hlevel e he a ha'
      have hlt := hg.length_lt he hw
      rw [← hone g h a (.refl g) (.child he hw) ha ha'] at hlt
      omega

theorem nodup_transitive_keys (hg : g.InPlace) {α : Type} {key : α → AbsolutePathId}
    {own : Group → Keyed key} (hown : ∀ {k : Group}, k.InPlace → ∀ {id a},
      (own k).lookup id = some a → id.parent = k.id) :
    (g.transitive fun k => (own k).keys).Nodup := by
  apply hg.nodup_transitive
  · intro h _
    exact (own h).dict.keys_nodup
  · intro h h' id hw hw' hid hid'
    obtain ⟨a, hl⟩ := Option.isSome_iff_exists.mp (AList.lookup_isSome.mpr hid)
    obtain ⟨a', hl'⟩ := Option.isSome_iff_exists.mp (AList.lookup_isSome.mpr hid')
    rw [← hown (hg.of_within hw) hl, hown (hg.of_within hw') hl']

theorem nodup_transitiveAppIds (hg : g.InPlace) : g.transitiveAppIds.Nodup :=
  hg.nodup_transitive_keys app_parent

theorem nodup_transitivePodIds (hg : g.InPlace) : g.transitivePodIds.Nodup :=
  hg.nodup_transitive_keys pod_parent

end InPlace

/-! ## Valid root groups -/

/-- A root group that passes the checks of `Group.validGroup`: everything is in its place,
and no two of an app, a pod and a group have one id. -/
structure ValidRoot (root : RootGroup) : Prop where
  isRoot : root.id = .root
  inPlace : root.InPlace
  noAppsAndPodsWithSameId : ∀ app ∈ root.transitiveApps, root.pod app.id = none
  noAppsAndGroupsWithSameName : ∀ app ∈ root.transitiveApps, root.group app.id = none
  noPodsAndGroupsWithSameName : ∀ pod ∈ root.transitivePods, root.group pod.id = none

namespace ValidRoot

variable {root : RootGroup}

/-- In a valid root group an id finds the run spec that has it, at any depth. -/
theorem runSpec_eq_some (hv : root.ValidRoot) {id : AbsolutePathId} {spec : RunSpec} :
    root.runSpec id = some spec ↔ spec ∈ root.transitiveRunSpecs ∧ spec.id = id :=
  hv.inPlace.runSpec_eq_some hv.noAppsAndPodsWithSameId

theorem containsRunSpec_iff (hv : root.ValidRoot) {id : AbsolutePathId} :
    root.containsRunSpec id = true ↔ ∃ spec ∈ root.transitiveRunSpecs, spec.id = id := by
  rw [containsRunSpec, Option.isSome_iff_exists]
  exact exists_congr fun spec => hv.runSpec_eq_some

/-- Two run specs with one id are the same. -/
theorem runSpec_unique (hv : root.ValidRoot) {spec spec' : RunSpec}
    (h : spec ∈ root.transitiveRunSpecs) (h' : spec' ∈ root.transitiveRunSpecs)
    (hid : spec.id = spec'.id) : spec = spec' := by
  have hl := hv.runSpec_eq_some.mpr ⟨h, hid⟩
  have hl' := hv.runSpec_eq_some.mpr ⟨h', rfl⟩
  exact Option.some.inj (hl.symm.trans hl')

theorem nodup_map_id (hv : root.ValidRoot) : (root.transitiveRunSpecs.map RunSpec.id).Nodup := by
  rw [transitiveRunSpecs, List.map_append, List.map_map, List.map_map]
  change (root.transitiveApps.map AppDefinition.id ++ root.transitivePods.map PodDefinition.id).Nodup
  rw [map_id_transitiveApps, map_id_transitivePods, List.nodup_append']
  refine ⟨hv.inPlace.nodup_transitiveAppIds, hv.inPlace.nodup_transitivePodIds, ?_⟩
  intro id hid hid'
  obtain ⟨app, happ, rfl⟩ := mem_transitiveAppIds.mp hid
  obtain ⟨pod, hpod, hsame⟩ := mem_transitivePodIds.mp hid'
  have hnone := hv.noAppsAndPodsWithSameId app happ
  rw [hv.inPlace.pod_eq_some.mpr ⟨hpod, hsame⟩] at hnone
  cases hnone

end ValidRoot

end Group

/-! ## Root groups of two levels -/

/-- An app of which only the id and the dependencies matter. -/
def plainApp (id : AbsolutePathId) (dependencies : Finset AbsolutePathId) : AppDefinition where
  id := id
  cmd := some "sleep 100"
  args := []
  user := none
  env := ∅
  instances := 1
  resources := ⟨1, 128, 0, 0⟩
  executor := ""
  executorResources := none
  constraints := ∅
  fetch := []
  portDefinitions := []
  requirePorts := false
  backoffStrategy := ⟨1000000000, 300000000000, 23 / 20⟩
  container := none
  healthChecks := ∅
  check := none
  readinessChecks := []
  taskKillGracePeriod := none
  dependencies := dependencies
  upgradeStrategy := ⟨1, 1⟩
  labels := ∅
  acceptedResourceRoles := ∅
  networks := []
  versionInfo := .onlyVersion ⟨0⟩
  secrets := ∅
  unreachableStrategy := .unreachableDisabled
  killSelection := .youngestFirst
  tty := none
  role := "*"
  resourceLimits := none

/-- A group with apps and pods and no child groups. -/
def plainGroup (id : AbsolutePathId) (apps : List AppDefinition) (pods : List PodDefinition)
    (dependencies : Finset AbsolutePathId) : Group where
  id := id
  apps := apps.foldl Keyed.insert ∅
  pods := pods.foldl Keyed.insert ∅
  groupsById := []
  dependencies := dependencies
  version := ⟨0⟩
  enforceRole := if id.isTopLevel then some false else none

/-- A root group with nothing but child groups. -/
def plainRoot (groups : List Group) : RootGroup where
  id := .root
  apps := ∅
  pods := ∅
  groupsById := groups.map fun g => (g.id, g)
  dependencies := ∅
  version := ⟨0⟩
  enforceRole := none

theorem Group.within_plainRoot {groups : List Group} {g : Group}
    (hgroups : ∀ g ∈ groups, g.groupsById = []) (hw : Within (plainRoot groups) g) :
    g = plainRoot groups ∨ g ∈ groups := by
  cases hw with
  | refl => exact .inl rfl
  | child he hw =>
    obtain ⟨h, hh, rfl⟩ := List.mem_map.mp he
    cases hw with
    | refl => exact .inr hh
    | child he' _ =>
      rw [hgroups h hh] at he'
      cases he'

/-- The checks of a root group with nothing but child groups of one level. -/
theorem Group.validRoot_plainRoot {groups : List Group} (hkeys : (groups.map Group.id).Nodup)
    (hgroups : ∀ g ∈ groups, g.id.isTopLevel = true ∧ g.groupsById.isEmpty = true ∧
      g.enforceRole.isSome = true ∧ (∀ app ∈ g.apps.values, app.id.parent = g.id) ∧
        ∀ pod ∈ g.pods.values, pod.id.parent = g.id)
    (happs : ∀ app ∈ (plainRoot groups).transitiveApps,
      ((plainRoot groups).pod app.id).isNone = true ∧
        ((plainRoot groups).group app.id).isNone = true)
    (hpods : ∀ pod ∈ (plainRoot groups).transitivePods,
      ((plainRoot groups).group pod.id).isNone = true) : (plainRoot groups).ValidRoot where
  isRoot := rfl
  inPlace := by
    have hentry : ∀ e ∈ (plainRoot groups).groupsById, e.2 ∈ groups ∧ e.1 = e.2.id := by
      intro e he
      obtain ⟨g, hg, rfl⟩ := List.mem_map.mp he
      exact ⟨hg, rfl⟩
    have htop : ∀ g ∈ groups, g.id.isRoot = false ∧ g.id.parent = .root := by
      intro g hg
      obtain ⟨hlevel, -⟩ := hgroups g hg
      rw [AbsolutePathId.isTopLevel, Bool.and_eq_true, Bool.not_eq_true'] at hlevel
      refine ⟨hlevel.1, ?_⟩
      exact congrArg AbsolutePathId.mk (List.isEmpty_iff.mp hlevel.2)
    apply Group.InPlace.mk
    · intro app happ
      cases happ
    · intro pod hpod
      cases hpod
    · rw [plainRoot, List.map_map]
      exact hkeys
    · intro e he
      obtain ⟨hg, hid⟩ := hentry e he
      exact ⟨hid, htop e.2 hg⟩
    · rfl
    · intro e he
      obtain ⟨hg, -⟩ := hentry e he
      obtain ⟨hlevel, hempty, henforce, hin, hin'⟩ := hgroups e.2 hg
      have hnil : e.2.groupsById = [] := List.isEmpty_iff.mp hempty
      refine .mk hin hin' (by simp [hnil]) (by simp [hnil]) (henforce.trans hlevel.symm) ?_
      simp [hnil]
  noAppsAndPodsWithSameId app happ := Option.isNone_iff_eq_none.mp (happs app happ).1
  noAppsAndGroupsWithSameName app happ := Option.isNone_iff_eq_none.mp (happs app happ).2
  noPodsAndGroupsWithSameName pod hpod := Option.isNone_iff_eq_none.mp (hpods pod hpod)

end Marathon
