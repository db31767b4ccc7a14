import Marathon.Raml.AppConversion
import Marathon.Raml.GroupConversion
import Marathon.State.GroupContents

/-!
# Group updates agree on new and existing groups

A group that does not exist is updated as an empty one. What an update says of a group decides what
becomes of its apps, child groups and dependencies, at every depth, and the pods stay. The result is
well-formed unless the update defines an id that is also kept.
-/

namespace Marathon

open Lib

variable {gid nid : AbsolutePathId} {updates : List GroupUpdate} {apps : Option (List App)}

namespace Group

variable {g h : Group}

/-- The ids of what stands directly in the group. -/
def heldIds (g : Group) : List AbsolutePathId :=
  g.apps.keys ++ g.pods.keys ++ g.groupsById.map Prod.fst

/-- The checks of `validGroup`: everything is in its place, and no two of an app, a pod and a child
group have one id. -/
structure WellFormed (g : Group) : Prop where
  inPlace : g.InPlace
  distinct : ∀ h, Within g h → h.heldIds.Nodup

theorem WellFormed.of_within (hg : g.WellFormed) (hw : Within g h) : h.WellFormed :=
  ⟨hg.inPlace.of_within hw, fun _ hk => hg.distinct _ (hw.trans hk)⟩

/-- The group at the path, or an empty one. -/
def groupOrEmpty (g : Group) (gid : AbsolutePathId) : Group :=
  (g.group gid).getD (.empty gid none ⟨0⟩)

theorem InPlace.id_groupOrEmpty (hg : g.InPlace) (gid : AbsolutePathId) :
    (g.groupOrEmpty gid).id = gid := by
  rw [groupOrEmpty]
  cases hl : g.group gid with
  | none => rfl
  | some h => exact (hg.group_eq_some.mp hl).2

theorem InPlace.groupOrEmpty_self (hg : g.InPlace) : g.groupOrEmpty g.id = g := by
  rw [groupOrEmpty, hg.group_eq_some.mpr ⟨.refl g, rfl⟩, Option.getD_some]

theorem inPlace_empty (id : AbsolutePathId) (enforceRole : Option Bool) (version : Timestamp) :
    (Group.empty id enforceRole version).InPlace := by
  refine .mk ?_ ?_ List.nodup_nil ?_ ?_ ?_
  · exact fun app happ => by cases happ
  · exact fun pod hpod => by cases hpod
  · exact fun e he => by cases he
  · exact isSome_enforceRole_apply id ∅ ∅ [] ∅ version enforceRole
  · exact fun e he => by cases he

theorem wellFormed_empty (id : AbsolutePathId) (enforceRole : Option Bool) (version : Timestamp) :
    (Group.empty id enforceRole version).WellFormed := by
  refine ⟨inPlace_empty id enforceRole version, fun h hw => ?_⟩
  cases hw with
  | refl => exact List.nodup_nil
  | child he hw => cases he

theorem WellFormed.groupOrEmpty (hg : g.WellFormed) (gid : AbsolutePathId) :
    (g.groupOrEmpty gid).WellFormed := by
  rw [Group.groupOrEmpty]
  cases hl : g.group gid with
  | none => exact wellFormed_empty gid none ⟨0⟩
  | some h => exact hg.of_within (hg.inPlace.group_eq_some.mp hl).1

namespace InPlace

theorem lookup_eq_some (hg : g.InPlace) :
    g.groupsById.lookup gid = some h ↔ (gid, h) ∈ g.groupsById := by
  constructor
  · intro hl
    obtain ⟨before, after, heq, -⟩ := List.lookup_eq_some_iff.mp hl
    rw [heq]
    exact List.mem_append_right before List.mem_cons_self
  · intro hmem
    have hkey : (g.groupsById.lookup gid).isSome :=
      List.lookup_isSome_iff.mpr ⟨_, hmem, beq_self_eq_true gid⟩
    obtain ⟨h', hl⟩ := Option.isSome_iff_exists.mp hkey
    obtain ⟨before, after, heq, -⟩ := List.lookup_eq_some_iff.mp hl
    have hmem' : (gid, h') ∈ g.groupsById := by
      rw [heq]
      exact List.mem_append_right before List.mem_cons_self
    have hsame := List.inj_on_of_nodup_map hg.keys_nodup hmem hmem' rfl
    rw [hl, (Prod.mk.inj hsame).2]

theorem groupOrEmpty_child (hg : g.InPlace) (hroot : gid.isRoot = false)
    (hparent : gid.parent = g.id) (hbelow : gid.path <+: nid.path) :
    ((g.groupsById.lookup gid).getD (.empty gid none ⟨0⟩)).groupOrEmpty nid = g.groupOrEmpty nid := by
  have hne : gid.path ≠ [] := fun hnil => by simp [AbsolutePathId.isRoot, hnil] at hroot
  have hlength : gid.path.length = g.id.path.length + 1 := by
    rw [← hparent, AbsolutePathId.parent_path, List.length_dropLast]
    have hpos := List.length_pos_of_ne_nil hne
    omega
  -- a group within at this path is within the child group
  have hchild : ∀ h, Within g h → h.id = nid → ∃ e ∈ g.groupsById, e.1 = gid ∧ Within e.2 h := by
    rintro h hw rfl
    cases hw with
    | refl =>
      have hle := hbelow.length_le
      omega
    | @child _ _ e he hw =>
      refine ⟨e, he, ?_, hw⟩
      have hpath := (hg.child he).prefix_of_within hw
      obtain ⟨segment, hsegment⟩ := hg.exists_segment he
      have hlength' : e.2.id.path.length = gid.path.length := by
        rw [hsegment, List.length_append, List.length_singleton, hlength]
      rw [(hg.entry he).1]
      apply congrArg AbsolutePathId.mk
      exact (List.prefix_of_prefix_length_le hpath hbelow hlength'.le).eq_of_length hlength'
  cases hl : g.groupsById.lookup gid with
  | none =>
    have hnone : g.group nid = none := by
      rw [Option.eq_none_iff_forall_ne_some]
      intro h hh
      obtain ⟨hw, hid⟩ := hg.group_eq_some.mp hh
      obtain ⟨e, he, heq, -⟩ := hchild h hw hid
      have hne := List.lookup_eq_none_iff.mp hl e he
      rw [heq, bne_self_eq_false] at hne
      cases hne
    rw [Option.getD_none, groupOrEmpty, groupOrEmpty, hnone, Option.getD_none]
    by_cases hsame : nid = gid
    · have hself : (Group.empty gid none ⟨0⟩).group gid = some (.empty gid none ⟨0⟩) :=
        (inPlace_empty gid none ⟨0⟩).group_eq_some.mpr ⟨.refl _, rfl⟩
      rw [hsame, hself]
      rfl
    · have hempty : (Group.empty gid none ⟨0⟩).group nid = none := by
        rw [Option.eq_none_iff_forall_ne_some]
        intro h hh
        obtain ⟨hw, hid⟩ := (inPlace_empty gid none ⟨0⟩).group_eq_some.mp hh
        cases hw with
        | refl => exact hsame hid.symm
        | child he hw => cases he
      rw [hempty, Option.getD_none]
  | some c =>
    have hmem := hg.lookup_eq_some.mp hl
    have hsame : c.group nid = g.group nid := by
      apply Option.ext
      intro h
      rw [(hg.child hmem).group_eq_some, hg.group_eq_some]
      constructor
      · rintro ⟨hw, hid⟩
        exact ⟨.child hmem hw, hid⟩
      · rintro ⟨hw, hid⟩
        obtain ⟨e, he, heq, hw'⟩ := hchild h hw hid
        obtain rfl := List.inj_on_of_nodup_map hg.keys_nodup he hmem heq
        exact ⟨hw', hid⟩
    rw [Option.getD_some, groupOrEmpty, groupOrEmpty, hsame]

end InPlace

end Group

namespace Raml

namespace GroupUpdate

/-- The updates of the child groups. -/
def children (update : GroupUpdate) : List GroupUpdate := update.groups.getD []

/-- The path of the updated group in the group `gid`. -/
def pathIn (update : GroupUpdate) (gid : AbsolutePathId) : AbsolutePathId :=
  (PathId.ofText (update.id.getD "")).canonicalPath gid

/-- The update of the group `gid` has an update of the group `nid`, the group itself or one below. -/
inductive Mentions : GroupUpdate → AbsolutePathId → GroupUpdate → AbsolutePathId → Prop
  | refl (update : GroupUpdate) (gid : AbsolutePathId) : Mentions update gid update gid
  | child {update child node : GroupUpdate} {gid nid : AbsolutePathId}
      (hchild : child ∈ update.children) (h : Mentions child (child.pathIn gid) node nid) :
      Mentions update gid node nid

def definedApps (update : GroupUpdate) : List AbsolutePathId :=
  (update.apps.getD []).map fun app => .ofText app.id

def definedGroups (update : GroupUpdate) (gid : AbsolutePathId) : List AbsolutePathId :=
  update.children.map fun child => child.pathIn gid

/-- The ids of what the update defines directly in its group. -/
def definedIds (update : GroupUpdate) (gid : AbsolutePathId) : List AbsolutePathId :=
  update.definedApps ++ update.definedGroups gid

/-- The ids of what the update keeps of the group. -/
def keptIds (update : GroupUpdate) (current : Group) : List AbsolutePathId :=
  (if update.apps.isNone then current.apps.keys else []) ++ current.pods.keys ++
    if update.groups.isNone then current.groupsById.map Prod.fst else []

/-- One level of a normalised update: it is structural and enforces a role or not, ids of apps and
their dependencies are absolute and canonical, ids are those of direct children and distinct. -/
structure NormalisedAt (update : GroupUpdate) (gid : AbsolutePathId) : Prop where
  scaleBy : update.scaleBy = none
  version : update.version = none
  enforceRole : update.enforceRole.isSome
  apps : ∀ app ∈ update.apps.getD [], ∃ id : AbsolutePathId, id.IsCanonical ∧ app.id = id.string ∧
    id.parent = gid
  dependencies : ∀ app ∈ update.apps.getD [], ∀ d ∈ app.dependencies, ∃ id : AbsolutePathId,
    id.IsCanonical ∧ d = id.string
  groups : ∀ child ∈ update.children, child.id.isSome ∧ (child.pathIn gid).isRoot = false ∧
    (child.pathIn gid).parent = gid
  distinct : (update.definedIds gid).Nodup

/-- Normalised at every level. -/
def Normalised (update : GroupUpdate) (gid : AbsolutePathId) : Prop :=
  ∀ node nid, update.Mentions gid node nid → node.NormalisedAt nid

section Mentioned

variable {update child node : GroupUpdate} {gid nid : AbsolutePathId}

theorem sizeOf_lt_of_mem_children (h : child ∈ update.children) : sizeOf child < sizeOf update := by
  obtain ⟨id, apps, groups, dependencies, scaleBy, version, enforceRole⟩ := update
  cases groups with
  | none => cases h
  | some groups =>
    have hlist : sizeOf child < sizeOf groups := List.sizeOf_lt_of_mem h
    simp only [mk.sizeOf_spec, Option.some.sizeOf_spec]
    omega

/-- What holds of an update whenever it holds of the updates of the child groups. -/
@[elab_as_elim]
theorem induction {motive : GroupUpdate → Prop}
    (h : ∀ update, (∀ child ∈ update.children, motive child) → motive update)
    (update : GroupUpdate) : motive update :=
  h update fun child hchild =>
    have : sizeOf child < sizeOf update := sizeOf_lt_of_mem_children hchild
    induction h child
termination_by sizeOf update

theorem Normalised.self (h : update.Normalised gid) : update.NormalisedAt gid :=
  h update gid (.refl update gid)

theorem Normalised.of_child (h : update.Normalised gid) (hchild : child ∈ update.children) :
    child.Normalised (child.pathIn gid) :=
  fun node nid hnode => h node nid (.child hchild hnode)

theorem prefix_pathIn (h : update.NormalisedAt gid) (hchild : child ∈ update.children) :
    gid.path <+: (child.pathIn gid).path := by
  obtain ⟨-, -, hparent⟩ := h.groups child hchild
  have hpath : gid.path = (child.pathIn gid).path.dropLast := by
    rw [← AbsolutePathId.parent_path, hparent]
  rw [hpath]
  exact List.dropLast_prefix _

theorem Mentions.path_grows (h : update.Mentions gid node nid) (hupdate : update.Normalised gid) :
    gid.path <+: nid.path := by
  induction h with
  | refl => exact List.prefix_refl _
  | child hchild hnode ih =>
    exact (prefix_pathIn (Normalised.self hupdate) hchild).trans
      (ih (Normalised.of_child hupdate hchild))

end Mentioned

end GroupUpdate

namespace UpdateGroupStructureOp

open GroupUpdate

/-! ## Maps of apps and groups -/

section Maps

variable {timestamp : Timestamp} {gid : AbsolutePathId}

theorem values_appsById {apps : List AppDefinition} (h : (apps.map AppDefinition.id).Nodup) :
    (appsById apps).values = apps.reverse :=
  (Keyed.values_foldl_insert h fun _ _ => rfl).trans (List.append_nil _)

theorem groupsById_eq {groups : List Group} (h : (groups.map Group.id).Nodup) :
    groupsById groups = (groups.map fun g => (g.id, g)).reverse := by
  have hall : ∀ entries : List (AbsolutePathId × Group),
      (∀ g ∈ groups, ∀ e ∈ entries, e.1 ≠ g.id) →
      groups.foldl (fun entries group => Group.putEntry group entries) entries =
        (groups.map fun g => (g.id, g)).reverse ++ entries := by
    induction groups with
    | nil => exact fun entries _ => rfl
    | cons g groups ih =>
      intro entries hnew
      rw [List.map_cons, List.nodup_cons] at h
      have herase : Group.eraseEntry g.id entries = entries :=
        List.filter_eq_self.mpr fun e he => decide_eq_true (hnew g List.mem_cons_self e he)
      rw [List.foldl_cons, Group.putEntry, herase, ih h.2, List.map_cons, List.reverse_cons,
        List.append_assoc]
      · rfl
      · intro k hk e he
        rcases List.mem_cons.mp he with rfl | he
        · exact fun heq => h.1 (List.mem_map.mpr ⟨k, hk, heq.symm⟩)
        · exact hnew k (List.mem_cons_of_mem _ hk) e he
  exact (hall [] fun _ _ e he => by cases he).trans (List.append_nil _)

theorem map_id_normalizeAppDefinition (apps : List AppDefinition) :
    (apps.map (normalizeAppDefinition timestamp)).map AppDefinition.id = apps.map AppDefinition.id := by
  rw [List.map_map]
  rfl

end Maps

/-! ## New groups are updated empty groups -/

section Operations

variable {cf : App → Option AppDefinition} {timestamp : Timestamp} {update : GroupUpdate}
  {current result : Group} {gid : AbsolutePathId}

theorem normalizeApp_eq (h : update.NormalisedAt gid) {app : App} (happ : app ∈ update.apps.getD []) :
    normalizeApp (fun id => ((PathId.ofText id).canonicalPath gid).string) app = app := by
  obtain ⟨id, hid, heq, -⟩ := h.apps app happ
  have hdependencies : app.dependencies.image
      (fun id => ((PathId.ofText id).canonicalPath gid).string) = app.dependencies := by
    refine (Finset.image_congr fun d hd => ?_).trans Finset.image_id
    obtain ⟨id', hid', rfl⟩ := h.dependencies app happ d hd
    exact congrArg AbsolutePathId.string (PathId.canonicalPath_string hid' gid)
  have hsame : ((PathId.ofText app.id).canonicalPath gid).string = app.id := by
    rw [heq, PathId.canonicalPath_string hid]
  rw [normalizeApp, hdependencies, hsame]

theorem createApps_eq (h : update.NormalisedAt gid) (enforceRole : Option Bool)
    (version : Timestamp) : createApps cf timestamp (update.apps.getD []) gid =
      effectiveApps cf timestamp update.apps (.empty gid enforceRole version) := by
  have hsame := mapM_congr fun app (happ : app ∈ update.apps.getD []) =>
    congrArg cf (normalizeApp_eq h happ)
  rw [createApps, hsame, effectiveApps]
  cases update.apps <;> rfl

theorem createGroups_eq (updates : List GroupUpdate) (enforceRole : Option Bool)
    (version : Timestamp) : createGroups cf timestamp updates gid =
      newGroups cf timestamp updates (.empty gid enforceRole version) := by
  induction updates with
  | nil => rfl
  | cons child updates ih =>
    rw [createGroups, newGroups, ih]
    rfl

theorem createGroup_eq (h : update.NormalisedAt gid) (enforceRole : Option Bool)
    (version : Timestamp) : createGroup cf timestamp update gid =
      execute cf timestamp update (.empty gid enforceRole version) := by
  have happs : createApps cf timestamp (update.apps.getD []) gid = _ :=
    createApps_eq h enforceRole version
  have hscale := h.scaleBy
  have hversion := h.version
  have henforce := h.enforceRole
  obtain ⟨id, apps, groups, dependencies, scaleBy, version', enforceRole'⟩ := update
  obtain rfl : scaleBy = none := hscale
  obtain rfl : version' = none := hversion
  obtain ⟨b, rfl⟩ := Option.isSome_iff_exists.mp henforce
  have hgroups : createGroupsById cf timestamp groups gid =
      effectiveGroups cf timestamp groups (.empty gid enforceRole version) := by
    cases groups with
    | none => rfl
    | some updates => rw [createGroupsById, effectiveGroups, createGroups_eq]
  rw [createGroup, execute, if_neg (by simp), hgroups, happs]
  cases effectiveGroups cf timestamp groups (.empty gid enforceRole version) with
  | none =>
    cases effectiveApps cf timestamp apps (.empty gid enforceRole version) <;> rfl
  | some groups =>
    cases effectiveApps cf timestamp apps (.empty gid enforceRole version) <;> rfl

/-! ## One level of an update -/

/-- The child group that is updated, an empty one if there is none. -/
def childOrEmpty (current : Group) (gid : AbsolutePathId) : Group :=
  (current.groupsById.lookup gid).getD (.empty gid none ⟨0⟩)

theorem newGroups_eq (h : ∀ child ∈ updates, child.id.isSome ∧
      child.NormalisedAt (child.pathIn current.id)) :
    newGroups cf timestamp updates current = updates.mapM fun child =>
      execute cf timestamp child (childOrEmpty current (child.pathIn current.id)) := by
  induction updates with
  | nil => rfl
  | cons child updates ih =>
    obtain ⟨hid, hchild⟩ := h child List.mem_cons_self
    obtain ⟨text, hid⟩ := Option.isSome_iff_exists.mp hid
    have hpath : child.pathIn current.id = (PathId.ofText text).canonicalPath current.id := by
      rw [pathIn, hid, Option.getD_some]
    have hnew : (current.groupsById.lookup (child.pathIn current.id)).elim
          (createGroup cf timestamp child (child.pathIn current.id))
          (fun group => execute cf timestamp child group) =
        execute cf timestamp child (childOrEmpty current (child.pathIn current.id)) := by
      rw [childOrEmpty]
      cases current.groupsById.lookup (child.pathIn current.id) with
      | none => exact createGroup_eq hchild none ⟨0⟩
      | some group => rfl
    rw [hpath] at hnew
    rw [newGroups, requireGroupPath, hid, List.mapM_cons, hpath,
      ← ih fun other hother => h other (List.mem_cons_of_mem _ hother), ← hnew]
    rfl

theorem perm_effectiveApps {effective : Keyed AppDefinition.id}
    (hcf : ∀ app definition, cf app = some definition → definition.id = .ofText app.id)
    (hnodup : ((apps.getD []).map fun app => AbsolutePathId.ofText app.id).Nodup)
    (h : effectiveApps cf timestamp apps current = some effective) :
    ∃ definitions, (apps.elim (some current.apps.values) fun apps => apps.mapM cf) =
        some definitions ∧
      effective.values.Perm (definitions.map (normalizeAppDefinition timestamp)) := by
  obtain ⟨definitions, hdefinitions, rfl⟩ := Option.map_eq_some_iff.mp h
  have hids : (definitions.map AppDefinition.id).Nodup := by
    cases apps with
    | none =>
      cases hdefinitions
      exact current.apps.nodup_map_values
    | some apps =>
      rw [map_eq_of_mapM (fun app _ => hcf app) hdefinitions]
      exact hnodup
  refine ⟨definitions, hdefinitions, ?_⟩
  rw [values_appsById (by rw [map_id_normalizeAppDefinition]; exact hids)]
  exact List.reverse_perm _

variable (cf timestamp) in
/-- What becomes of the group: it has the new version and keeps its pods, it has what the update
defines, and of what the update leaves undefined what it has had, apps with the new version. -/
structure Rebuilds (update : GroupUpdate) (current rebuilt : Group) : Prop where
  id : rebuilt.id = current.id
  version : rebuilt.version = timestamp
  pods : rebuilt.pods = current.pods
  dependencies : rebuilt.dependencies = update.dependencies.elim current.dependencies
    fun dependencies => canonicalIds dependencies current.id
  keptApps : update.apps = none →
    rebuilt.apps.values.Perm (current.apps.values.map (normalizeAppDefinition timestamp))
  definedApps : ∀ apps, update.apps = some apps → ∃ definitions, apps.mapM cf = some definitions ∧
    rebuilt.apps.values.Perm (definitions.map (normalizeAppDefinition timestamp))
  keptGroups : update.groups = none → rebuilt.groupsById = current.groupsById
  definedGroups : update.groups.isSome →
    (rebuilt.groupsById.map Prod.fst).Perm (update.definedGroups current.id)

theorem execute_eq (h : update.NormalisedAt gid) : execute cf timestamp update current =
    (effectiveGroups cf timestamp update.groups current).bind fun groups =>
      (effectiveApps cf timestamp update.apps current).map fun apps =>
        .apply current.id apps current.pods groups
          (update.dependencies.elim current.dependencies fun dependencies =>
            canonicalIds dependencies current.id) timestamp update.enforceRole := by
  have hscale := h.scaleBy
  have hversion := h.version
  have henforce := h.enforceRole
  obtain ⟨id, apps, groups, dependencies, scaleBy, version, enforceRole⟩ := update
  obtain rfl : scaleBy = none := hscale
  obtain rfl : version = none := hversion
  obtain ⟨b, rfl⟩ := Option.isSome_iff_exists.mp henforce
  rw [execute, if_neg (by simp)]
  cases effectiveGroups cf timestamp groups current with
  | none => rfl
  | some groups => cases effectiveApps cf timestamp apps current <;> rfl

theorem id_execute (h : update.NormalisedAt gid)
    (hexecute : execute cf timestamp update current = some result) : result.id = current.id := by
  rw [execute_eq h] at hexecute
  obtain ⟨groups, -, hexecute⟩ := Option.bind_eq_some_iff.mp hexecute
  obtain ⟨apps, -, rfl⟩ := Option.map_eq_some_iff.mp hexecute
  rfl

section Current

variable (hcurrent : current.InPlace)
include hcurrent

theorem id_childOrEmpty (gid : AbsolutePathId) : (childOrEmpty current gid).id = gid := by
  rw [childOrEmpty]
  cases hl : current.groupsById.lookup gid with
  | none => rfl
  | some child => exact (hcurrent.entry (hcurrent.lookup_eq_some.mp hl)).1.symm

theorem inPlace_childOrEmpty (gid : AbsolutePathId) : (childOrEmpty current gid).InPlace := by
  rw [childOrEmpty]
  cases hl : current.groupsById.lookup gid with
  | none => exact Group.inPlace_empty gid none ⟨0⟩
  | some child => exact hcurrent.child (hcurrent.lookup_eq_some.mp hl)

theorem effectiveGroups_eq_some (hupdate : update.Normalised current.id)
    (hgroups : update.groups = some updates) {entries : List (AbsolutePathId × Group)}
    (h : effectiveGroups cf timestamp update.groups current = some entries) :
    ∃ groups, updates.mapM (fun child =>
        execute cf timestamp child (childOrEmpty current (child.pathIn current.id))) = some groups ∧
      groups.map Group.id = update.definedGroups current.id ∧
      entries = (groups.map fun g => (g.id, g)).reverse := by
  have hchildren : update.children = updates := by rw [children, hgroups, Option.getD_some]
  have hnormalised : ∀ child ∈ updates, child.NormalisedAt (child.pathIn current.id) :=
    fun child hchild => (hupdate.of_child (hchildren ▸ hchild)).self
  rw [hgroups, effectiveGroups, newGroups_eq fun child hchild =>
    ⟨(hupdate.self.groups child (hchildren ▸ hchild)).1, hnormalised child hchild⟩] at h
  obtain ⟨groups, hmap, rfl⟩ := Option.map_eq_some_iff.mp h
  have hids : groups.map Group.id = update.definedGroups current.id := by
    rw [definedGroups, hchildren]
    refine map_eq_of_mapM (fun child hchild group hgroup => ?_) hmap
    rw [id_execute (hnormalised child hchild) hgroup, id_childOrEmpty hcurrent]
  refine ⟨groups, hmap, hids, groupsById_eq ?_⟩
  rw [hids]
  exact (List.nodup_append.mp hupdate.self.distinct).2.1

theorem rebuilds_of_execute
    (hcf : ∀ app definition, cf app = some definition → definition.id = .ofText app.id)
    (hupdate : update.Normalised current.id)
    (hexecute : execute cf timestamp update current = some result) :
    Rebuilds cf timestamp update current result := by
  rw [execute_eq hupdate.self] at hexecute
  obtain ⟨groups, hgroups, hexecute⟩ := Option.bind_eq_some_iff.mp hexecute
  obtain ⟨apps, happs, rfl⟩ := Option.map_eq_some_iff.mp hexecute
  have hnodup : ((update.apps.getD []).map fun app => AbsolutePathId.ofText app.id).Nodup :=
    (List.nodup_append.mp hupdate.self.distinct).1
  obtain ⟨definitions, hdefinitions, hperm⟩ := perm_effectiveApps hcf hnodup happs
  refine ⟨rfl, rfl, rfl, rfl, fun hnone => ?_, fun list hsome => ?_, fun hnone => ?_, fun hsome => ?_⟩
  · rw [hnone] at hdefinitions
    cases hdefinitions
    exact hperm
  · rw [hsome] at hdefinitions
    exact ⟨definitions, hdefinitions, hperm⟩
  · rw [hnone] at hgroups
    exact (Option.some.inj hgroups).symm
  · obtain ⟨updates, hupdates⟩ := Option.isSome_iff_exists.mp hsome
    obtain ⟨children, -, hids, rfl⟩ := effectiveGroups_eq_some hcurrent hupdate hupdates hgroups
    show ((children.map fun g => (g.id, g)).reverse.map Prod.fst).Perm _
    rw [List.map_reverse, List.map_map, ← hids]
    exact List.reverse_perm _

theorem mem_groupsById_of_execute (hupdate : update.Normalised current.id)
    (hsome : update.groups.isSome) (hexecute : execute cf timestamp update current = some result)
    {e : AbsolutePathId × Group} : e ∈ result.groupsById ↔ ∃ child ∈ update.children,
      execute cf timestamp child (childOrEmpty current (child.pathIn current.id)) = some e.2 ∧
        e.1 = child.pathIn current.id := by
  rw [execute_eq hupdate.self] at hexecute
  obtain ⟨groups, hgroups, hexecute⟩ := Option.bind_eq_some_iff.mp hexecute
  obtain ⟨apps, -, rfl⟩ := Option.map_eq_some_iff.mp hexecute
  obtain ⟨updates, hupdates⟩ := Option.isSome_iff_exists.mp hsome
  obtain ⟨groups, hmap, -, rfl⟩ := effectiveGroups_eq_some hcurrent hupdate hupdates hgroups
  have hchildren : update.children = updates := by rw [children, hupdates, Option.getD_some]
  have hid : ∀ child ∈ update.children, ∀ group, execute cf timestamp child
      (childOrEmpty current (child.pathIn current.id)) = some group →
      group.id = child.pathIn current.id := by
    intro child hchild group hgroup
    rw [id_execute (hupdate.of_child hchild).self hgroup, id_childOrEmpty hcurrent]
  show e ∈ (groups.map fun g => (g.id, g)).reverse ↔ _
  rw [List.mem_reverse, List.mem_map]
  constructor
  · rintro ⟨group, hgroup, rfl⟩
    obtain ⟨child, hchild, hexecute⟩ := (mem_of_mapM hmap).mp hgroup
    rw [← hchildren] at hchild
    exact ⟨child, hchild, hexecute, hid child hchild group hexecute⟩
  · rintro ⟨child, hchild, hexecute, heq⟩
    refine ⟨e.2, (mem_of_mapM hmap).mpr ⟨child, hchildren ▸ hchild, hexecute⟩, ?_⟩
    rw [hid child hchild e.2 hexecute, ← heq]

end Current

/-! ## All levels -/

section Levels

variable (hcf : ∀ app definition, cf app = some definition → definition.id = .ofText app.id)
include hcf

theorem mem_apps_of_rebuilds {rebuilt : Group} (hupdate : update.NormalisedAt current.id)
    (hrebuilds : Rebuilds cf timestamp update current rebuilt) (hcurrent : current.InPlace) :
    ∀ app ∈ rebuilt.apps.values, app.id.parent = current.id := by
  intro app happ
  cases hnone : update.apps with
  | none =>
    have hmem := (hrebuilds.keptApps hnone).mem_iff.mp happ
    obtain ⟨kept, hkept, rfl⟩ := List.mem_map.mp hmem
    exact hcurrent.parent_of_mem_apps kept hkept
  | some apps =>
    obtain ⟨definitions, hdefinitions, hperm⟩ := hrebuilds.definedApps apps hnone
    obtain ⟨definition, hdefinition, rfl⟩ := List.mem_map.mp (hperm.mem_iff.mp happ)
    obtain ⟨app, happ, hcfapp⟩ := (mem_of_mapM hdefinitions).mp hdefinition
    obtain ⟨id, hid, htext, hparent⟩ := hupdate.apps app (by rw [hnone]; exact happ)
    show definition.id.parent = current.id
    rw [hcf app definition hcfapp, htext, AbsolutePathId.ofText_string_iff.mpr hid, hparent]

theorem inPlace_of_execute (hcurrent : current.InPlace) (hupdate : update.Normalised current.id)
    (hexecute : execute cf timestamp update current = some result) : result.InPlace := by
  induction update using GroupUpdate.induction generalizing current result with
  | h update ih =>
    have hrebuilds := rebuilds_of_execute hcurrent hcf hupdate hexecute
    have henforce : result.enforceRole.isSome = result.id.isTopLevel := by
      rw [execute_eq hupdate.self] at hexecute
      obtain ⟨groups, -, hexecute⟩ := Option.bind_eq_some_iff.mp hexecute
      obtain ⟨apps, -, rfl⟩ := Option.map_eq_some_iff.mp hexecute
      exact Group.isSome_enforceRole_apply ..
    have happs := mem_apps_of_rebuilds hcf hupdate.self hrebuilds hcurrent
    have hpods : ∀ pod ∈ result.pods.values, pod.id.parent = current.id := by
      rw [hrebuilds.pods]
      exact hcurrent.parent_of_mem_pods
    rw [← hrebuilds.id] at happs hpods
    cases hgroups : update.groups with
    | none =>
      have hkept := hrebuilds.keptGroups hgroups
      refine .mk happs hpods ?_ ?_ henforce ?_
      · rw [hkept]
        exact hcurrent.keys_nodup
      · rw [hkept, hrebuilds.id]
        exact fun e => hcurrent.entry
      · rw [hkept]
        exact fun e => hcurrent.child
    | some updates =>
      have hsome : update.groups.isSome := by rw [hgroups]; rfl
      have hmem : ∀ e, e ∈ result.groupsById → ∃ child ∈ update.children,
          execute cf timestamp child (childOrEmpty current (child.pathIn current.id)) = some e.2 ∧
            e.1 = child.pathIn current.id := fun e =>
        (mem_groupsById_of_execute hcurrent hupdate hsome hexecute).mp
      refine .mk happs hpods ?_ ?_ henforce ?_
      · refine (hrebuilds.definedGroups hsome).nodup_iff.mpr ?_
        exact (List.nodup_append.mp hupdate.self.distinct).2.1
      · intro e he
        obtain ⟨child, hchild, hexecute', hid⟩ := hmem e he
        obtain ⟨-, hroot, hparent⟩ := hupdate.self.groups child hchild
        have hid' := id_execute (hupdate.of_child hchild).self hexecute'
        rw [id_childOrEmpty hcurrent] at hid'
        rw [hid, hid', hrebuilds.id]
        exact ⟨rfl, hroot, hparent⟩
      · intro e he
        obtain ⟨child, hchild, hexecute', -⟩ := hmem e he
        refine ih child hchild (inPlace_childOrEmpty hcurrent _) ?_ hexecute'
        rw [id_childOrEmpty hcurrent]
        exact hupdate.of_child hchild

theorem exists_rebuilt {node : GroupUpdate} (hcurrent : current.InPlace)
    (hupdate : update.Normalised current.id)
    (hexecute : execute cf timestamp update current = some result)
    (hnode : update.Mentions current.id node nid) :
    ∃ rebuilt, Group.Within result rebuilt ∧
      Rebuilds cf timestamp node (current.groupOrEmpty nid) rebuilt := by
  generalize hgid : current.id = gid at hnode hupdate
  induction hnode generalizing current result with
  | refl update gid =>
    subst hgid
    rw [hcurrent.groupOrEmpty_self]
    exact ⟨result, .refl result, rebuilds_of_execute hcurrent hcf hupdate hexecute⟩
  | @child update child node gid nid hchild hnode ih =>
    subst hgid
    have hnormalised := Normalised.of_child hupdate hchild
    obtain ⟨-, hroot, hparent⟩ := (Normalised.self hupdate).groups child hchild
    have hsome : update.groups.isSome := by
      rw [children] at hchild
      cases hgroups : update.groups with
      | none =>
        rw [hgroups] at hchild
        cases hchild
      | some updates => rfl
    -- the child group has been updated
    have hconverts : ∃ rebuilt, execute cf timestamp child
        (childOrEmpty current (child.pathIn current.id)) = some rebuilt := by
      rw [execute_eq (Normalised.self hupdate)] at hexecute
      obtain ⟨entries, hentries, -⟩ := Option.bind_eq_some_iff.mp hexecute
      obtain ⟨updates, hupdates⟩ := Option.isSome_iff_exists.mp hsome
      obtain ⟨groups, hmap, -⟩ := effectiveGroups_eq_some hcurrent hupdate hupdates hentries
      refine exists_eq_some_of_mapM hmap ?_
      rwa [children, hupdates, Option.getD_some] at hchild
    obtain ⟨rebuilt, hrebuilt⟩ := hconverts
    obtain ⟨found, hw, hfound⟩ := ih (inPlace_childOrEmpty hcurrent _) hrebuilt
      (id_childOrEmpty hcurrent _) hnormalised
    have hmem : (child.pathIn current.id, rebuilt) ∈ result.groupsById :=
      (mem_groupsById_of_execute hcurrent hupdate hsome hexecute).mpr ⟨child, hchild, hrebuilt, rfl⟩
    refine ⟨found, .child hmem hw, ?_⟩
    rwa [childOrEmpty, hcurrent.groupOrEmpty_child hroot hparent
      (Mentions.path_grows hnode hnormalised)] at hfound

end Levels

/-! ## Well-formed results -/

section Distinct

variable {rebuilt : Group}

theorem perm_heldIds
    (hcf : ∀ app definition, cf app = some definition → definition.id = .ofText app.id)
    (hrebuilds : Rebuilds cf timestamp update current rebuilt) :
    rebuilt.heldIds.Perm (update.keptIds current ++ update.definedIds current.id) := by
  have happs : rebuilt.apps.keys.Perm
      ((if update.apps.isNone then current.apps.keys else []) ++ update.definedApps) := by
    rw [Keyed.keys_eq, Keyed.keys_eq, definedApps]
    cases hdefined : update.apps with
    | none =>
      have hperm := (hrebuilds.keptApps hdefined).map AppDefinition.id
      rw [map_id_normalizeAppDefinition] at hperm
      simpa using hperm
    | some apps =>
      obtain ⟨definitions, hdefinitions, hperm⟩ := hrebuilds.definedApps apps hdefined
      have hperm := hperm.map AppDefinition.id
      rw [map_id_normalizeAppDefinition,
        map_eq_of_mapM (fun app _ => hcf app) hdefinitions] at hperm
      simpa using hperm
  have hgroups : (rebuilt.groupsById.map Prod.fst).Perm
      ((if update.groups.isNone then current.groupsById.map Prod.fst else []) ++
        update.definedGroups current.id) := by
    cases hdefined : update.groups with
    | none =>
      have hempty : update.definedGroups current.id = [] := by
        rw [definedGroups, children, hdefined]
        rfl
      rw [hrebuilds.keptGroups hdefined, hempty]
      simp
    | some updates => simpa using hrebuilds.definedGroups (by rw [hdefined]; rfl)
  rw [Group.heldIds, hrebuilds.pods, keptIds, definedIds]
  refine ((happs.append_right _).append hgroups).trans (List.perm_iff_count.mpr fun id => ?_)
  simp only [List.count_append]
  omega

theorem keptIds_sublist : (update.keptIds current).Sublist current.heldIds := by
  rw [keptIds, Group.heldIds]
  refine ((List.Sublist.append ?_ (List.Sublist.refl _)).append ?_)
  · split
    · exact List.Sublist.refl _
    · exact List.nil_sublist _
  · split
    · exact List.Sublist.refl _
    · exact List.nil_sublist _

theorem nodup_heldIds_iff
    (hcf : ∀ app definition, cf app = some definition → definition.id = .ofText app.id)
    (hcurrent : current.heldIds.Nodup) (hupdate : update.NormalisedAt current.id)
    (hrebuilds : Rebuilds cf timestamp update current rebuilt) :
    rebuilt.heldIds.Nodup ↔ (update.keptIds current).Disjoint (update.definedIds current.id) := by
  rw [(perm_heldIds hcf hrebuilds).nodup_iff, List.nodup_append',
    and_iff_right (hcurrent.sublist keptIds_sublist), and_iff_right hupdate.distinct]

theorem wellFormed_childOrEmpty (hcurrent : current.WellFormed) (gid : AbsolutePathId) :
    (childOrEmpty current gid).WellFormed := by
  rw [childOrEmpty]
  cases hl : current.groupsById.lookup gid with
  | none => exact Group.wellFormed_empty gid none ⟨0⟩
  | some child => exact hcurrent.of_within (.child (hcurrent.inPlace.lookup_eq_some.mp hl) (.refl _))

theorem wellFormed_iff
    (hcf : ∀ app definition, cf app = some definition → definition.id = .ofText app.id)
    (hcurrent : current.WellFormed) (hupdate : update.Normalised current.id)
    (hexecute : execute cf timestamp update current = some result) :
    result.WellFormed ↔ ∀ node nid, update.Mentions current.id node nid →
      (node.keptIds (current.groupOrEmpty nid)).Disjoint (node.definedIds nid) := by
  constructor
  · intro hresult node nid hnode
    obtain ⟨rebuilt, hw, hrebuilds⟩ := exists_rebuilt hcf hcurrent.inPlace hupdate hexecute hnode
    have hid := hcurrent.inPlace.id_groupOrEmpty nid
    have hnormalised := hupdate node nid hnode
    rw [← hid] at hnormalised
    have hdisjoint := (nodup_heldIds_iff hcf ((hcurrent.groupOrEmpty nid).distinct _ (.refl _))
      hnormalised hrebuilds).mp (hresult.distinct rebuilt hw)
    rwa [hid] at hdisjoint
  · intro hdisjoint
    refine ⟨inPlace_of_execute hcf hcurrent.inPlace hupdate hexecute, ?_⟩
    induction update using GroupUpdate.induction generalizing current result with
    | h update ih =>
      intro h hw
      cases hw with
      | refl =>
        have hself := hdisjoint update current.id (.refl update _)
        rw [hcurrent.inPlace.groupOrEmpty_self] at hself
        exact (nodup_heldIds_iff hcf (hcurrent.distinct _ (.refl _)) hupdate.self
          (rebuilds_of_execute hcurrent.inPlace hcf hupdate hexecute)).mpr hself
      | @child _ _ e he hw =>
        cases hgroups : update.groups with
        | none =>
          have hkept := (rebuilds_of_execute hcurrent.inPlace hcf hupdate hexecute).keptGroups hgroups
          rw [hkept] at he
          exact hcurrent.distinct h (.child he hw)
        | some updates =>
          have hsome : update.groups.isSome := by rw [hgroups]; rfl
          obtain ⟨child, hchild, hexecute', -⟩ :=
            (mem_groupsById_of_execute hcurrent.inPlace hupdate hsome hexecute).mp he
          have hid := id_childOrEmpty hcurrent.inPlace (child.pathIn current.id)
          have hnormalised := hupdate.of_child hchild
          refine ih child hchild (wellFormed_childOrEmpty hcurrent _) (by rwa [hid]) hexecute'
            ?_ h hw
          intro node nid hnode
          rw [hid] at hnode
          obtain ⟨-, hroot, hparent⟩ := hupdate.self.groups child hchild
          have hall := hdisjoint node nid (.child hchild hnode)
          rwa [← hcurrent.inPlace.groupOrEmpty_child hroot hparent
            (hnode.path_grows hnormalised)] at hall

end Distinct

/-! ## Updates that throw -/

theorem isSome_execute (hcurrent : current.InPlace) (hupdate : update.Normalised current.id) :
    (execute cf timestamp update current).isSome ↔
      ∀ node nid, update.Mentions current.id node nid →
        ∀ app ∈ node.apps.getD [], (cf app).isSome := by
  induction update using GroupUpdate.induction generalizing current with
  | h update ih =>
    have happs : (effectiveApps cf timestamp update.apps current).isSome ↔
        ∀ app ∈ update.apps.getD [], (cf app).isSome := by
      rw [effectiveApps, Option.isSome_map]
      cases update.apps with
      | none => exact iff_of_true rfl fun app happ => by cases happ
      | some apps => exact isSome_mapM
    have hgroups : (effectiveGroups cf timestamp update.groups current).isSome ↔
        ∀ child ∈ update.children, ∀ node nid, child.Mentions (child.pathIn current.id) node nid →
          ∀ app ∈ node.apps.getD [], (cf app).isSome := by
      cases hdefined : update.groups with
      | none =>
        have hnone : update.children = [] := by rw [children, hdefined, Option.getD_none]
        rw [hnone]
        exact iff_of_true rfl fun child hchild => by cases hchild
      | some updates =>
        have hchildren : update.children = updates := by rw [children, hdefined, Option.getD_some]
        rw [effectiveGroups, newGroups_eq fun child hchild =>
          ⟨(hupdate.self.groups child (hchildren ▸ hchild)).1,
            (hupdate.of_child (hchildren ▸ hchild)).self⟩, Option.isSome_map, isSome_mapM, hchildren]
        refine forall₂_congr fun child hchild => ?_
        rw [← hchildren] at hchild
        have hid := id_childOrEmpty hcurrent (child.pathIn current.id)
        have hstep := ih child hchild (inPlace_childOrEmpty hcurrent _)
          (by rw [hid]; exact hupdate.of_child hchild)
        rwa [hid] at hstep
    have hboth : (execute cf timestamp update current).isSome ↔
        (effectiveGroups cf timestamp update.groups current).isSome ∧
          (effectiveApps cf timestamp update.apps current).isSome := by
      rw [execute_eq hupdate.self]
      cases effectiveGroups cf timestamp update.groups current <;>
        cases effectiveApps cf timestamp update.apps current <;> simp
    rw [hboth, hgroups, happs]
    constructor
    · rintro ⟨hchildren, hself⟩ node nid hnode
      cases hnode with
      | refl => exact hself
      | child hchild hnode => exact hchildren _ hchild node nid hnode
    · exact fun h => ⟨fun child hchild node nid hnode => h node nid (.child hchild hnode),
        h update current.id (.refl update _)⟩

variable (cf timestamp update current) in
/-- The update of the group throws only where an app is not converted. Every group that it has an
update for is rebuilt, from an empty group if there is none, and a new group is an empty one that is
updated. -/
structure Agrees : Prop where
  converts : (execute cf timestamp update current).isSome ↔ ∀ node nid,
    update.Mentions current.id node nid → ∀ app ∈ node.apps.getD [], (cf app).isSome
  rebuilds : ∀ result, execute cf timestamp update current = some result → ∀ node nid,
    update.Mentions current.id node nid → ∃ rebuilt, result.group nid = some rebuilt ∧
      Rebuilds cf timestamp node (current.groupOrEmpty nid) rebuilt
  wellFormed : ∀ result, execute cf timestamp update current = some result → result.InPlace ∧
    (result.WellFormed ↔ ∀ node nid, update.Mentions current.id node nid →
      (node.keptIds (current.groupOrEmpty nid)).Disjoint (node.definedIds nid))
  creates : ∀ enforceRole version, execute cf timestamp update (.empty current.id enforceRole version) =
    createGroup cf timestamp update current.id

variable (timestamp) in
/-- Whatever the conversion of apps is, if it keeps their ids. -/
theorem agrees_of_normalised
    (hcf : ∀ app definition, cf app = some definition → definition.id = .ofText app.id)
    (hcurrent : current.WellFormed) (hupdate : update.Normalised current.id) :
    Agrees cf timestamp update current where
  converts := isSome_execute hcurrent.inPlace hupdate
  rebuilds := by
    intro result hexecute node nid hnode
    obtain ⟨rebuilt, hw, hrebuilds⟩ := exists_rebuilt hcf hcurrent.inPlace hupdate hexecute hnode
    have hresult := inPlace_of_execute hcf hcurrent.inPlace hupdate hexecute
    refine ⟨rebuilt, hresult.group_eq_some.mpr ⟨hw, ?_⟩, hrebuilds⟩
    rw [hrebuilds.id, hcurrent.inPlace.id_groupOrEmpty]
  wellFormed := fun _ hexecute => ⟨inPlace_of_execute hcf hcurrent.inPlace hupdate hexecute,
    wellFormed_iff hcf hcurrent hupdate hexecute⟩
  creates := fun enforceRole version => (createGroup_eq hupdate.self enforceRole version).symm

end Operations

/-! ## An app that is kept and a group that has its id -/

theorem id_of_appRamlReader {now : Timestamp} {app : App} {definition : AppDefinition}
    (h : appRamlReader now app = some definition) : definition.id = .ofText app.id := by
  obtain ⟨role, -, h⟩ := Option.bind_eq_some_iff.mp h
  obtain ⟨constraints, -, h⟩ := Option.bind_eq_some_iff.mp h
  obtain ⟨container, -, h⟩ := Option.bind_eq_some_iff.mp h
  obtain ⟨healthChecks, -, h⟩ := Option.bind_eq_some_iff.mp h
  obtain ⟨check, -, h⟩ := Option.bind_eq_some_iff.mp h
  obtain ⟨readinessChecks, -, h⟩ := Option.bind_eq_some_iff.mp h
  obtain ⟨networks, -, h⟩ := Option.bind_eq_some_iff.mp h
  obtain ⟨limits, -, h⟩ := Option.bind_eq_some_iff.mp h
  dsimp only at h
  split_ifs at h
  cases h
  rfl

theorem normalised_iff {update : GroupUpdate} : update.Normalised gid ↔
    update.NormalisedAt gid ∧ ∀ child ∈ update.children, child.Normalised (child.pathIn gid) := by
  constructor
  · exact fun h => ⟨h.self, fun child hchild => h.of_child hchild⟩
  · rintro ⟨hself, hchildren⟩ node nid hnode
    cases hnode with
    | refl => exact hself
    | child hchild hnode => exact hchildren _ hchild node nid hnode

/-- An update of a group in the group `services`, with the apps. -/
def update (id : String) (apps : Option (List App)) (groups : Option (List GroupUpdate)) :
    GroupUpdate :=
  ⟨some id, apps, groups, none, none, none, some false⟩

/-- The group `services` with an app. -/
def services : Group :=
  { Group.empty ⟨["services"]⟩ none ⟨1⟩ with
    apps := (∅ : Keyed AppDefinition.id).insert (plainApp ⟨["services", "web"]⟩ ∅) }

theorem wellFormed_services : services.WellFormed := by
  refine ⟨.mk ?_ ?_ List.nodup_nil ?_ rfl ?_, fun h hw => ?_⟩
  · exact fun app happ => List.mem_singleton.mp happ ▸ rfl
  · exact fun pod hpod => by cases hpod
  · exact fun e he => by cases he
  · exact fun e he => by cases he
  · cases hw with
    | refl => exact List.nodup_singleton _
    | child he => cases he

theorem normalised_leaf {id : String} : (update id none none).Normalised gid := by
  refine normalised_iff.mpr ⟨⟨rfl, rfl, rfl, ?_, ?_, ?_, List.nodup_nil⟩, ?_⟩ <;>
    exact fun a ha => by cases ha

theorem normalised_single {id : String}
    (happs : ∀ app ∈ apps.getD [], app.id = "/services/web" ∧ app.dependencies = ∅)
    (hroot : ((update id none none).pathIn services.id).isRoot = false)
    (hparent : ((update id none none).pathIn services.id).parent = services.id)
    (hdistinct : ((update "/services" apps (some [update id none none])).definedIds
      services.id).Nodup) :
    (update "/services" apps (some [update id none none])).Normalised services.id := by
  refine normalised_iff.mpr ⟨⟨rfl, rfl, rfl, ?_, ?_, ?_, hdistinct⟩, ?_⟩
  · intro app happ
    exact ⟨⟨["services", "web"]⟩, by decide, (happs app happ).1, rfl⟩
  · intro app happ d hd
    rw [(happs app happ).2] at hd
    cases hd
  · intro child hchild
    obtain rfl := List.mem_singleton.mp hchild
    exact ⟨rfl, hroot, hparent⟩
  · intro child hchild
    obtain rfl := List.mem_singleton.mp hchild
    exact normalised_leaf

/-- The app again, and a new group. -/
theorem agrees_services : Agrees (appRamlReader ⟨0⟩) ⟨9⟩ (update "/services"
    ((appWriter (plainApp ⟨["services", "web"]⟩ ∅)).map fun app => [app])
    (some [update "db" none none])) services :=
  agrees_of_normalised ⟨9⟩ (fun _ _ => id_of_appRamlReader) wellFormed_services
    (normalised_single (by decide +kernel) (by decide +kernel) (by decide +kernel)
      (by decide +kernel))

/-- The group of the app's id stands beside the app that is kept, and the app has a new version. A
group that is no direct child has no place. -/
theorem not_forall_wellFormed :
    (¬ ∀ (update : GroupUpdate) (current result : Group), current.WellFormed →
      update.Normalised current.id →
      execute (appRamlReader ⟨0⟩) ⟨9⟩ update current = some result → result.WellFormed) ∧
    (¬ ∀ (update : GroupUpdate) (current result : Group), current.WellFormed →
      update.Normalised current.id →
      execute (appRamlReader ⟨0⟩) ⟨9⟩ update current = some result → update.apps = none →
      result.apps.values = current.apps.values) ∧
    ∃ result, execute (appRamlReader ⟨0⟩) ⟨9⟩
      (update "/services" none (some [update "db/main" none none])) services = some result ∧
        ¬ result.InPlace := by
  have hweb : (update "/services" none (some [update "web" none none])).Normalised services.id :=
    normalised_single (fun app happ => by cases happ) (by decide +kernel) (by decide +kernel)
      (by decide +kernel)
  obtain ⟨result, hresult⟩ : ∃ result, execute (appRamlReader ⟨0⟩) ⟨9⟩
      (update "/services" none (some [update "web" none none])) services = some result := ⟨_, rfl⟩
  refine ⟨?_, ?_, _, rfl, ?_⟩
  · intro h
    have hnodup := (h _ services result wellFormed_services hweb hresult).distinct result (.refl _)
    have hids : (execute (appRamlReader ⟨0⟩) ⟨9⟩
        (update "/services" none (some [update "web" none none])) services).map Group.heldIds =
        some [⟨["services", "web"]⟩, ⟨["services", "web"]⟩] := by decide +kernel
    rw [hresult, Option.map_some, Option.some.injEq] at hids
    rw [hids] at hnodup
    exact absurd hnodup (by decide)
  · intro h
    have hkept := h _ services result wellFormed_services hweb hresult rfl
    have hversions : (execute (appRamlReader ⟨0⟩) ⟨9⟩
        (update "/services" none (some [update "web" none none])) services).map
          (fun g => g.apps.values.map AppDefinition.versionInfo) = some [.onlyVersion ⟨9⟩] := by
      decide +kernel
    rw [hresult, Option.map_some, Option.some.injEq, hkept] at hversions
    exact absurd hversions (by decide)
  · intro hplace
    have hentry := (hplace.entry (List.mem_singleton_self _)).2.2
    revert hentry
    decide +kernel

end UpdateGroupStructureOp

end Raml

end Marathon
