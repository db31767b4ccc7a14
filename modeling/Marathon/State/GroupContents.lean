import Marathon.Lib.PathMap
import Marathon.State.RootGroupEdit

/-!
# What stands at each path of a group

A group as a tree by its paths, with what each group holds besides its child groups. Where
everything stands in its place, this and the versions are all that there is to a group.
-/

namespace Marathon

open Lib

namespace Group

/-- What a group holds besides its child groups. -/
structure Own where
  apps : Keyed AppDefinition.id
  pods : Keyed PodDefinition.id
  dependencies : Finset AbsolutePathId
  enforceRole : Option Bool

/-- The group itself holds an app or a pod. -/
def Own.HoldsRunSpec (o : Own) : Prop := o.apps.values ≠ [] ∨ o.pods.values ≠ []

def own (g : Group) : Own := ⟨g.apps, g.pods, g.dependencies, g.enforceRole⟩

def contents (g : Group) : PathMap String Own := fun path => (g.group ⟨path⟩).map own

/-- What is held under the id by the group at the path of its parent. -/
def held {α : Type} {key : α → AbsolutePathId} (own : Own → Keyed key) (m : PathMap String Own)
    (id : AbsolutePathId) : Option α :=
  (m id.parent.path).bind fun o => (own o).lookup id

variable {g h : Group} {id : AbsolutePathId} {path : List String}

/-- Some group within has a value. -/
theorem any_transitive {α : Type} {values : Group → List α} :
    ((g.transitive fun h => [!(values h).isEmpty]).any fun nonEmpty => nonEmpty) = true ↔
      ∃ h, Within g h ∧ values h ≠ [] := by
  simp only [List.any_eq_true, mem_transitive, List.mem_singleton]
  constructor
  · rintro ⟨nonEmpty, ⟨h, hw, rfl⟩, hne⟩
    exact ⟨h, hw, by simpa using hne⟩
  · rintro ⟨h, hw, hne⟩
    exact ⟨true, ⟨h, hw, by simpa using hne⟩, rfl⟩

namespace InPlace

theorem contents_eq_some (hg : g.InPlace) {o : Own} :
    g.contents path = some o ↔ ∃ h, Within g h ∧ h.id.path = path ∧ h.own = o := by
  rw [contents, Option.map_eq_some_iff]
  constructor
  · rintro ⟨h, hl, rfl⟩
    obtain ⟨hw, hid⟩ := hg.group_eq_some.mp hl
    exact ⟨h, hw, congrArg AbsolutePathId.path hid, rfl⟩
  · rintro ⟨h, hw, rfl, rfl⟩
    exact ⟨h, hg.group_eq_some.mpr ⟨hw, rfl⟩, rfl⟩

theorem contents_self (hg : g.InPlace) : g.contents g.id.path = some g.own :=
  hg.contents_eq_some.mpr ⟨g, .refl g, rfl, rfl⟩

theorem prefix_of_isSome (hg : g.InPlace) (h : (g.contents path).isSome) : g.id.path <+: path := by
  obtain ⟨o, ho⟩ := Option.isSome_iff_exists.mp h
  obtain ⟨h, hw, rfl, -⟩ := hg.contents_eq_some.mp ho
  exact hg.prefix_of_within hw

theorem contents_of_child (hg : g.InPlace) {e : AbsolutePathId × Group} (he : e ∈ g.groupsById)
    (hpath : e.2.id.path <+: path) : g.contents path = e.2.contents path := by
  apply Option.ext
  intro o
  rw [hg.contents_eq_some, (hg.child he).contents_eq_some]
  constructor
  · rintro ⟨h, hw, rfl, rfl⟩
    cases hw with
    | refl =>
      obtain ⟨segment, hsegment⟩ := hg.exists_segment he
      have hlength := hpath.length_le
      rw [hsegment, List.length_append, List.length_singleton] at hlength
      omega
    | child he' hw =>
      have hpath' := (hg.child he').prefix_of_within hw
      obtain rfl := hg.entry_unique he he' hpath hpath'
      exact ⟨h, hw, rfl, rfl⟩
  · rintro ⟨h, hw, hid, ho⟩
    exact ⟨h, .child he hw, hid, ho⟩

/-- Nothing else stands in a group than the group itself and its child groups. -/
theorem contents_eq_none (hg : g.InPlace) (hself : path ≠ g.id.path)
    (hchild : ∀ e ∈ g.groupsById, ¬e.2.id.path <+: path) : g.contents path = none := by
  rw [Option.eq_none_iff_forall_ne_some]
  intro o ho
  obtain ⟨h, hw, rfl, -⟩ := hg.contents_eq_some.mp ho
  cases hw with
  | refl => exact hself rfl
  | child he hw => exact hchild _ he ((hg.child he).prefix_of_within hw)

theorem parent_of_mem_apps (hg : g.InPlace) : ∀ app ∈ g.apps.values, app.id.parent = g.id := by
  obtain ⟨happs, -, -, -, -, -⟩ := hg
  exact happs

theorem parent_of_mem_pods (hg : g.InPlace) : ∀ pod ∈ g.pods.values, pod.id.parent = g.id := by
  obtain ⟨-, hpods, -, -, -, -⟩ := hg
  exact hpods

/-- Every group but the root group stands in a group. -/
theorem closed_contents (hg : g.InPlace) (hroot : g.id = .root) : g.contents.Closed := by
  intro p q hpq hq
  obtain ⟨o, ho⟩ := Option.isSome_iff_exists.mp hq
  obtain ⟨h, hw, rfl, -⟩ := hg.contents_eq_some.mp ho
  have hp : g.id.path <+: p := by
    rw [hroot]
    exact List.nil_prefix
  clear hroot hq ho
  induction hw with
  | refl g =>
    rw [antisymm hpq hp, hg.contents_self]
    rfl
  | @child g h e he hw ih =>
    by_cases hchild : e.2.id.path <+: p
    · rw [hg.contents_of_child he hchild]
      exact ih (hg.child he) hpq hchild
    · obtain ⟨segment, hsegment⟩ := hg.exists_segment he
      have hbelow := (hg.child he).prefix_of_within hw
      -- the path lies between the group and its child
      have hle : p <+: g.id.path ++ [segment] := by
        rcases List.prefix_or_prefix_of_prefix hpq hbelow with hle | hle
        · rwa [hsegment] at hle
        · exact absurd hle hchild
      rcases List.prefix_concat_iff.mp hle with rfl | hle
      · exact absurd (hsegment ▸ List.prefix_refl _) hchild
      · rw [antisymm hle hp, hg.contents_self]
        rfl

theorem contents_of_within (hg : g.InPlace) (hw : Within g h) (hpath : h.id.path <+: path) :
    g.contents path = h.contents path := by
  induction hw with
  | refl => rfl
  | child he hw ih =>
    rw [hg.contents_of_child he (((hg.child he).prefix_of_within hw).trans hpath)]
    exact ih (hg.child he) hpath

theorem occupied_contents (hg : g.InPlace) {P : Own → Prop} :
    g.contents.Occupied P g.id.path ↔ ∃ h, Within g h ∧ P h.own := by
  constructor
  · rintro ⟨q, o, -, ho, hP⟩
    obtain ⟨h, hw, -, rfl⟩ := hg.contents_eq_some.mp ho
    exact ⟨h, hw, hP⟩
  · rintro ⟨h, hw, hP⟩
    exact ⟨h.id.path, h.own, hg.prefix_of_within hw, hg.contents_eq_some.mpr ⟨h, hw, rfl, rfl⟩, hP⟩

theorem contents_congr (hg : g.InPlace) (hh : h.InPlace) (hid : h.id = g.id)
    (hself : path = g.id.path → h.own = g.own)
    (hentries : ∀ e : AbsolutePathId × Group, e.2.id.path <+: path →
      (e ∈ h.groupsById ↔ e ∈ g.groupsById)) : h.contents path = g.contents path := by
  by_cases heq : path = g.id.path
  · rw [heq, hg.contents_self, ← hid, hh.contents_self, hself heq]
  by_cases hchild : ∃ e ∈ g.groupsById, e.2.id.path <+: path
  · obtain ⟨e, he, hbelow⟩ := hchild
    rw [hg.contents_of_child he hbelow, hh.contents_of_child ((hentries e hbelow).mpr he) hbelow]
  · push Not at hchild
    rw [hg.contents_eq_none heq hchild]
    rw [← hid] at heq
    exact hh.contents_eq_none heq fun e he hbelow => hchild e ((hentries e hbelow).mp he) hbelow

theorem find_eq_held (hg : g.InPlace) {α : Type} {key : α → AbsolutePathId} (own : Own → Keyed key)
    (hown : ∀ {k : Group}, k.InPlace → ∀ {id a},
      (own k.own).lookup id = some a → id.parent = k.id) (id : AbsolutePathId) :
    ((own g.own).lookup id).or ((g.group id.parent).bind fun k => (own k.own).lookup id) =
      held own g.contents id := by
  rw [held, contents, Option.bind_map]
  cases hl : (own g.own).lookup id with
  | none => rfl
  | some a =>
    have hself : g.group id.parent = some g :=
      hg.group_eq_some.mpr ⟨.refl g, (hown hg hl).symm⟩
    have hheld : (g.group id.parent).bind (fun k => (own k.own).lookup id) = some a := by
      rw [hself]
      exact hl
    exact hheld.symm

theorem app_eq (hg : g.InPlace) (id : AbsolutePathId) : g.app id = held Own.apps g.contents id :=
  hg.find_eq_held Own.apps app_parent id

theorem pod_eq (hg : g.InPlace) (id : AbsolutePathId) : g.pod id = held Own.pods g.contents id :=
  hg.find_eq_held Own.pods pod_parent id

/-! ### Groups that differ in what they hold themselves -/

/-- What is held by the group itself is changed, and stays below its path. -/
theorem of_own (hg : g.InPlace) (hid : h.id = g.id) (hentries : h.groupsById = g.groupsById)
    (henforce : h.enforceRole = g.enforceRole) (happs : ∀ app ∈ h.apps.values, app.id.parent = g.id)
    (hpods : ∀ pod ∈ h.pods.values, pod.id.parent = g.id) : h.InPlace := by
  rw [← hid] at happs hpods
  refine .mk happs hpods ?_ ?_ ?_ ?_
  · rw [hentries]
    exact hg.keys_nodup
  · intro e he
    rw [hentries] at he
    rw [hid]
    exact hg.entry he
  · rw [henforce, hid]
    exact hg.isSome_enforceRole
  · intro e he
    rw [hentries] at he
    exact hg.child he

theorem contents_of_own (hg : g.InPlace) (hh : h.InPlace) (hid : h.id = g.id)
    (hentries : h.groupsById = g.groupsById) {f : Own → Own} (hown : h.own = f g.own) :
    h.contents = g.contents.modify g.id.path f := by
  funext path
  by_cases hself : path = g.id.path
  · rw [hself, PathMap.modify_self, hg.contents_self, ← hid, hh.contents_self, hown]
    rfl
  · rw [PathMap.modify_of_ne hself]
    refine hg.contents_congr hh hid (fun heq => absurd heq hself) fun e _ => ?_
    rw [hentries]

/-! ### One child group less or more -/

theorem eraseEntry (hg : g.InPlace) (id : AbsolutePathId) :
    InPlace { g with groupsById := Group.eraseEntry id g.groupsById } := by
  have hkept : ∀ e ∈ Group.eraseEntry id g.groupsById, e ∈ g.groupsById := fun e he =>
    (List.mem_filter.mp he).1
  refine .mk hg.parent_of_mem_apps hg.parent_of_mem_pods ?_ ?_ hg.isSome_enforceRole ?_
  · exact hg.keys_nodup.sublist (List.filter_sublist.map Prod.fst)
  · exact fun e he => hg.entry (hkept e he)
  · exact fun e he => hg.child (hkept e he)

/-- With a child group goes everything below its path. -/
theorem contents_eraseEntry (hg : g.InPlace) (hroot : id.isRoot = false)
    (hparent : id.parent = g.id) :
    contents { g with groupsById := Group.eraseEntry id g.groupsById } =
      g.contents.prune id.path := by
  have herased := hg.eraseEntry id
  have hkept : ∀ e ∈ Group.eraseEntry id g.groupsById, e ∈ g.groupsById ∧ e.2.id ≠ id := by
    intro e he
    obtain ⟨he, hne⟩ := List.mem_filter.mp he
    rw [← (hg.entry he).1]
    exact ⟨he, of_decide_eq_true hne⟩
  have hbelow : ¬id.path <+: g.id.path := by
    intro hle
    have hlength := hle.length_le
    have hne : id.path ≠ [] := fun hnil => by simp [AbsolutePathId.isRoot, hnil] at hroot
    have hpos := List.length_pos_of_ne_nil hne
    rw [← hparent, AbsolutePathId.parent_path, List.length_dropLast] at hlength
    omega
  funext path
  by_cases hpath : id.path <+: path
  · rw [PathMap.prune_of_leads hpath]
    apply herased.contents_eq_none
    · rintro rfl
      exact hbelow hpath
    · intro e he hle
      obtain ⟨he, hne⟩ := hkept e he
      obtain ⟨segment, hsegment⟩ := hg.exists_segment he
      have hlength : e.2.id.path.length = id.path.length := by
        have hid : id.path ≠ [] := fun hnil => by simp [AbsolutePathId.isRoot, hnil] at hroot
        have hpos := List.length_pos_of_ne_nil hid
        rw [hsegment, List.length_append, List.length_singleton, ← hparent,
          AbsolutePathId.parent_path, List.length_dropLast]
        omega
      apply hne
      apply congrArg AbsolutePathId.mk
      exact (List.prefix_of_prefix_length_le hle hpath hlength.le).eq_of_length hlength
  · rw [PathMap.prune_of_not_leads hpath]
    refine hg.contents_congr herased rfl (fun _ => rfl) fun e hle => ?_
    refine ⟨fun he => (hkept e he).1, fun he => List.mem_filter.mpr ⟨he, ?_⟩⟩
    rw [decide_eq_true_iff, (hg.entry he).1]
    exact fun hid => hpath (hid ▸ hle)

theorem putEntry (hg : g.InPlace) (hh : h.InPlace) (hroot : h.id.isRoot = false)
    (hparent : h.id.parent = g.id) :
    InPlace { g with groupsById := Group.putEntry h g.groupsById } := by
  have herased : ∀ e ∈ Group.eraseEntry h.id g.groupsById, e ∈ g.groupsById ∧ e.1 ≠ h.id := by
    intro e he
    simpa [Group.eraseEntry] using he
  refine .mk hg.parent_of_mem_apps hg.parent_of_mem_pods ?_ ?_ hg.isSome_enforceRole ?_
  · rw [Group.putEntry, List.map_cons, List.nodup_cons]
    refine ⟨?_, hg.keys_nodup.sublist (List.filter_sublist.map Prod.fst)⟩
    intro hmem
    obtain ⟨e, he, heq⟩ := List.mem_map.mp hmem
    exact (herased e he).2 heq
  · intro e he
    rcases List.mem_cons.mp he with rfl | he
    · exact ⟨rfl, hroot, hparent⟩
    · exact hg.entry (herased e he).1
  · intro e he
    rcases List.mem_cons.mp he with rfl | he
    · exact hh
    · exact hg.child (herased e he).1

theorem contents_putEntry (hg : g.InPlace) (hh : h.InPlace) (hroot : h.id.isRoot = false)
    (hparent : h.id.parent = g.id) :
    contents { g with groupsById := Group.putEntry h g.groupsById } =
      PathMap.graft h.id.path h.contents g.contents := by
  have hput := hg.putEntry hh hroot hparent
  have hmem : (h.id, h) ∈ Group.putEntry h g.groupsById := List.mem_cons_self
  funext path
  by_cases hpath : h.id.path <+: path
  · rw [PathMap.graft_of_leads hpath]
    exact hput.contents_of_child hmem hpath
  · rw [PathMap.graft_of_not_leads hpath]
    refine hg.contents_congr hput rfl (fun _ => rfl) fun e hbelow => ?_
    constructor
    · intro he
      rcases List.mem_cons.mp he with rfl | he
      · exact absurd hbelow hpath
      · exact (List.mem_filter.mp he).1
    · intro he
      refine List.mem_cons_of_mem _ (List.mem_filter.mpr ⟨he, ?_⟩)
      rw [decide_eq_true_iff, (hg.entry he).1]
      exact fun hid => hpath (hid ▸ hbelow)

/-! ### A child group with the id of an app or a pod -/

theorem contains_iff (hg : g.InPlace) :
    (g.containsApps || g.containsPods) = true ↔
      g.contents.Occupied Own.HoldsRunSpec g.id.path := by
  rw [Bool.or_eq_true, containsApps, containsPods, any_transitive, any_transitive, hg.occupied_contents]
  constructor
  · rintro (⟨h, hw, hne⟩ | ⟨h, hw, hne⟩)
    · exact ⟨h, hw, .inl hne⟩
    · exact ⟨h, hw, .inr hne⟩
  · rintro ⟨h, hw, hne | hne⟩
    · exact .inl ⟨h, hw, hne⟩
    · exact .inr ⟨h, hw, hne⟩

theorem contains_entry_iff (hg : g.InPlace) {e : AbsolutePathId × Group} (he : e ∈ g.groupsById) :
    (e.2.containsApps || e.2.containsPods) = true ↔
      g.contents.Occupied Own.HoldsRunSpec e.2.id.path := by
  rw [(hg.child he).contains_iff]
  refine exists_congr fun q => exists_congr fun o => and_congr_right fun hq => ?_
  rw [hg.contents_of_child he hq]

/-- The root is not the id of a child group, and one that holds a run spec is kept. -/
theorem withoutConflicting_of_kept (hg : g.InPlace)
    (hkept : id.isRoot = true ∨ g.contents.Occupied Own.HoldsRunSpec id.path) :
    withoutConflicting id g.groupsById = g.groupsById := by
  refine List.filter_eq_self.mpr fun e he => ?_
  by_cases hid : e.2.id = id
  · rw [← hid, (hg.entry he).2.1] at hkept
    have hcontains := (hg.contains_entry_iff he).mpr (hkept.resolve_left (fun h => by cases h))
    simpa [Bool.or_assoc] using Or.inr hcontains
  · simp [hid]

theorem withoutConflicting_of_empty (hg : g.InPlace)
    (hempty : ¬g.contents.Occupied Own.HoldsRunSpec id.path) :
    withoutConflicting id g.groupsById = Group.eraseEntry id g.groupsById := by
  refine List.filter_congr fun e he => ?_
  rw [(hg.entry he).1]
  by_cases hid : e.2.id = id
  · rw [← hid, ← hg.contains_entry_iff he, Bool.or_eq_true, not_or] at hempty
    simp [hid, hempty]
  · simp [hid]

end InPlace

end Group

end Marathon
