import Marathon.State.FlatDefinitions

/-!
# The versions of changed run specs

Before a new root group is deployed, `GroupVersioningUtil` gives a new version to each app and pod
that differs from the one before.
-/

namespace Marathon

open Lib

namespace VersionInfo

def forNewConfig (newVersion : Timestamp) : VersionInfo :=
  fullVersionInfo newVersion newVersion newVersion

def withScaleChange (newVersion : Timestamp) : VersionInfo → VersionInfo
  | fullVersionInfo _ _ lastConfigChangeAt => fullVersionInfo newVersion newVersion lastConfigChangeAt
  | info => fullVersionInfo newVersion newVersion info.version

def withRestartChange (newVersion : Timestamp) : VersionInfo → VersionInfo
  | fullVersionInfo _ lastScalingAt _ => fullVersionInfo newVersion lastScalingAt newVersion
  | info => fullVersionInfo newVersion info.version newVersion

end VersionInfo

namespace GroupVersioningUtil

/-- What the function for apps and the one for pods use of them. -/
structure Kind (D : Type) where
  id : D → AbsolutePathId
  versionInfo : D → VersionInfo
  withVersionInfo : D → VersionInfo → D
  isUpgrade : D → D → Bool
  isOnlyScaleChange : D → D → Bool
  find : RootGroup → AbsolutePathId → Option D
  transitive : RootGroup → List D
  update : NewGroupEnforceRoleBehavior → Timestamp → RootGroup → D → Option RootGroup

def apps : Kind AppDefinition where
  id := AppDefinition.id
  versionInfo := AppDefinition.versionInfo
  withVersionInfo newApp newVersionInfo := { newApp with versionInfo := newVersionInfo }
  isUpgrade := AppDefinition.isUpgrade
  isOnlyScaleChange := AppDefinition.isOnlyScaleChange
  find := Group.app
  transitive := Group.transitiveApps
  update behavior version resultGroup updatedApp :=
    resultGroup.updateApp behavior updatedApp.id (fun _ => updatedApp) version

def pods : Kind PodDefinition where
  id := PodDefinition.id
  versionInfo := PodDefinition.versionInfo
  withVersionInfo newPod newVersionInfo := { newPod with versionInfo := newVersionInfo }
  isUpgrade := PodDefinition.isUpgrade
  isOnlyScaleChange := PodDefinition.isOnlyScaleChange
  find := Group.pod
  transitive := Group.transitivePods
  update behavior version resultGroup updatedPod :=
    resultGroup.updatePod behavior updatedPod.id (fun _ => updatedPod) version

variable {D : Type} (kind : Kind D) (behavior : NewGroupEnforceRoleBehavior) (version : Timestamp)
  (original target : RootGroup)

/-- `updateAppVersionInfo` and `updatePodVersionInfo`. -/
def updateVersionInfo (maybeOld : Option D) (new : D) : D :=
  kind.withVersionInfo new <| match maybeOld with
    | none => .forNewConfig version
    | some old =>
      if kind.isUpgrade old new then .forNewConfig version
      else if kind.isOnlyScaleChange old new then (kind.versionInfo old).withScaleChange version
      else if kind.versionInfo old ≠ kind.versionInfo new ∧ kind.versionInfo new = .noVersion then
        (kind.versionInfo old).withRestartChange version
      else kind.versionInfo old

/-- A run spec of the target as it is updated. -/
def updated (new : D) : D :=
  updateVersionInfo kind version (kind.find original (kind.id new)) new

def updateVersionInfoForChanged : Option RootGroup := do
  let updatedTarget := (kind.transitive target).filterMap fun new =>
    let updated := updated kind version original new
    if kind.versionInfo updated ≠ kind.versionInfo new then some updated else none
  let updatedTo ← target.updateVersion version
  updatedTarget.foldlM (kind.update behavior version) updatedTo

def updateVersionInfoForChangedApps : Option RootGroup :=
  updateVersionInfoForChanged apps behavior version original target

def updateVersionInfoForChangedPods : Option RootGroup :=
  updateVersionInfoForChanged pods behavior version original target

/-- What is known of a kind of run specs, next to which a part of the root group stays. -/
structure Kind.Lawful {R : Type} (rest : RootGroup → R) : Prop where
  id_withVersionInfo : ∀ d info, kind.id (kind.withVersionInfo d info) = kind.id d
  withVersionInfo_self : ∀ d info, kind.versionInfo (kind.withVersionInfo d info) =
    kind.versionInfo d → kind.withVersionInfo d info = d
  updateVersionInfo_withVersionInfo : ∀ d, ∀ info ≠ .noVersion,
    updateVersionInfo kind version (some d) (kind.withVersionInfo d info) = d
  find_eq_some : ∀ {root : RootGroup}, root.Rooted → ∀ {id d},
    kind.find root id = some d ↔ d ∈ kind.transitive root ∧ kind.id d = id
  nodup : ∀ {root : RootGroup}, root.Rooted → ((kind.transitive root).map kind.id).Nodup
  find_of_definitions : ∀ {root result : RootGroup}, result.definitions = root.definitions →
    kind.find result = kind.find root ∧ rest result = rest root
  update : ∀ {root : RootGroup} d, root.Rooted → ∃ result,
    kind.update behavior version root d = some result ∧ result.Rooted ∧ result.version = version ∧
      (∀ id, kind.find result id = if id = kind.id d then some d else kind.find root id) ∧
        rest result = rest root

theorem lawful_apps : apps.Lawful behavior version Group.pod where
  id_withVersionInfo _ _ := rfl
  withVersionInfo_self d info h := congrArg (fun info => { d with versionInfo := info }) h
  updateVersionInfo_withVersionInfo d info h := by
    have hupgrade : d.isUpgrade { d with versionInfo := info } = false :=
      AppDefinition.isUpgrade_of_runtime_eq rfl
    simp [updateVersionInfo, apps, hupgrade, AppDefinition.isOnlyScaleChange, h]
  find_eq_some hr := hr.inPlace.app_eq_some
  nodup hr := (Group.map_id_transitiveApps _).symm ▸ hr.inPlace.nodup_transitiveAppIds
  find_of_definitions h := ⟨congrArg Definitions.apps h, congrArg Definitions.pods h⟩
  update {root} d hr := by
    obtain ⟨result, hresult, hrooted, -, hversion⟩ :
        Group.Yields (root.updateApp behavior d.id (fun _ => d) version) _ version :=
      hr.yields_updateApp behavior rfl version
    have hrun : (Edit.updateApp d.id (fun _ => d) version).run root behavior = some result := hresult
    have hput := (Edit.definitions_run hr (by exact rfl) hrun).2
    exact ⟨result, hresult, hrooted, hversion _ (.refl _),
      congrFun (congrArg Definitions.apps hput), congrArg Definitions.pods hput⟩

theorem lawful_pods : pods.Lawful behavior version Group.app where
  id_withVersionInfo _ _ := rfl
  withVersionInfo_self d info h := congrArg (fun info => { d with versionInfo := info }) h
  updateVersionInfo_withVersionInfo d info h := by
    have hupgrade : d.isUpgrade { d with versionInfo := info } = false :=
      PodDefinition.isUpgrade_of_runtime_eq rfl
    simp [updateVersionInfo, pods, hupgrade, PodDefinition.isOnlyScaleChange, h]
  find_eq_some hr := hr.inPlace.pod_eq_some
  nodup hr := (Group.map_id_transitivePods _).symm ▸ hr.inPlace.nodup_transitivePodIds
  find_of_definitions h := ⟨congrArg Definitions.pods h, congrArg Definitions.apps h⟩
  update {root} d hr := by
    obtain ⟨result, hresult, hrooted, -, hversion⟩ :
        Group.Yields (root.updatePod behavior d.id (fun _ => d) version) _ version :=
      hr.yields_updatePod behavior rfl version
    have hrun : (Edit.updatePod d.id (fun _ => d) version).run root behavior = some result := hresult
    have hput := (Edit.definitions_run hr (by exact rfl) hrun).2
    exact ⟨result, hresult, hrooted, hversion _ (.refl _),
      congrFun (congrArg Definitions.pods hput), congrArg Definitions.apps hput⟩

section Kind

variable {kind behavior version original target} {R : Type} {rest : RootGroup → R}
  (hkind : kind.Lawful behavior version rest)

include hkind

/-- Run specs are put anew where they change, and are as `f` has them in any case. -/
theorem exists_foldlM_update {f : D → D} (hid : ∀ d, kind.id (f d) = kind.id d)
    (hsame : ∀ d, kind.versionInfo (f d) = kind.versionInfo d → f d = d) {l : List D}
    (hnodup : (l.map kind.id).Nodup) {root : RootGroup} (hr : root.Rooted)
    (hversion : root.version = version) (hl : ∀ d ∈ l, kind.find root (kind.id d) = some d) :
    ∃ result, (l.filterMap fun d => if kind.versionInfo (f d) ≠ kind.versionInfo d then some (f d)
        else none).foldlM (kind.update behavior version) root = some result ∧ result.Rooted ∧
      result.version = version ∧ rest result = rest root ∧ ∀ id, kind.find result id =
        if id ∈ l.map kind.id then (kind.find root id).map f else kind.find root id := by
  induction l generalizing root with
  | nil => exact ⟨root, rfl, hr, hversion, rfl, fun id => rfl⟩
  | cons d l ih =>
    rw [List.map_cons, List.nodup_cons] at hnodup
    obtain ⟨hd, hl⟩ := List.forall_mem_cons.mp hl
    obtain ⟨next, hnext, hrooted, hversion, hfind, hrest⟩ : ∃ next,
        (if kind.versionInfo (f d) ≠ kind.versionInfo d then kind.update behavior version root (f d)
          else some root) = some next ∧ next.Rooted ∧ next.version = version ∧
        (∀ id, kind.find next id = if id = kind.id d then some (f d) else kind.find root id) ∧
          rest next = rest root := by
      split_ifs with hchanged
      · rw [← hid d]
        exact hkind.update (f d) hr
      · refine ⟨root, rfl, hr, hversion, fun id => ?_, rfl⟩
        split_ifs with heq
        · rw [heq, hd, hsame d (not_not.mp hchanged)]
        · rfl
    obtain ⟨result, hresult, hrooted', hversion', hrest', hfind'⟩ :=
      ih hnodup.2 hrooted hversion fun e he => by
        rw [hfind, if_neg, hl e he]
        exact fun heq => hnodup.1 (heq ▸ List.mem_map_of_mem he)
    refine ⟨result, ?_, hrooted', hversion', hrest'.trans hrest, fun id => ?_⟩
    · rw [← hresult, List.filterMap_cons]
      split_ifs at hnext ⊢
      · rw [List.foldlM_cons, hnext]
        rfl
      · cases hnext
        rfl
    · rw [hfind', hfind, List.map_cons]
      by_cases heq : id = kind.id d
      · rw [if_neg (heq ▸ hnodup.1), if_pos heq, if_pos (heq ▸ List.mem_cons_self), heq, hd]
        rfl
      · rw [if_neg heq]
        exact if_congr (by simp [heq]) rfl rfl

variable (original) in
theorem exists_updated (hr : target.Rooted) :
    ∃ result, updateVersionInfoForChanged kind behavior version original target = some result ∧
      result.Rooted ∧ result.version = version ∧ rest result = rest target ∧
        ∀ id, kind.find result id = (kind.find target id).map (updated kind version original) := by
  obtain ⟨updatedTo, hupdatedTo, hrooted, -, hversion⟩ := hr.yields_updateVersion version
  have hrun : (Edit.updateVersion version).run target behavior = some updatedTo := hupdatedTo
  obtain ⟨hsame, hrest⟩ := hkind.find_of_definitions (Edit.definitions_run hr (by trivial) hrun).2
  obtain ⟨result, hresult, hresulting, hversion, hrest', hfind⟩ :=
    exists_foldlM_update hkind (f := updated kind version original)
      (fun d => hkind.id_withVersionInfo d _) (fun d => hkind.withVersionInfo_self d _)
      (hkind.nodup hr) hrooted (hversion _ (.refl _)) fun d hd => by
        rw [hsame]
        exact (hkind.find_eq_some hr).mpr ⟨hd, rfl⟩
  refine ⟨result, ?_, hresulting, hversion, hrest'.trans hrest, fun id => ?_⟩
  · rw [updateVersionInfoForChanged, hupdatedTo]
    exact hresult
  · rw [hfind, hsame]
    split_ifs with hid
    · rfl
    · cases hget : kind.find target id with
      | none => rfl
      | some d =>
        obtain ⟨hd, rfl⟩ := (hkind.find_eq_some hr).mp hget
        exact absurd (List.mem_map_of_mem hd) hid

end Kind

/-- One function after the other, as `GroupManagerImpl` has them, gives every app and pod of the
target the version info that follows from what it replaces, and changes no other definition. -/
theorem exists_versioned (behavior : NewGroupEnforceRoleBehavior) (version : Timestamp)
    (original : RootGroup) {target : RootGroup} (hr : target.Rooted) :
    ∃ withVersionedApps result,
      updateVersionInfoForChangedApps behavior version original target = some withVersionedApps ∧
      updateVersionInfoForChangedPods behavior version original withVersionedApps = some result ∧
      result.Rooted ∧ result.version = version ∧
      (∀ id, result.app id = (target.app id).map (updated apps version original)) ∧
      ∀ id, result.pod id = (target.pod id).map (updated pods version original) := by
  obtain ⟨withVersionedApps, happs, hrooted, -, hpod, happ⟩ :=
    exists_updated original (lawful_apps behavior version) hr
  obtain ⟨result, hpods, hresult, hversion, happ', hpod'⟩ :=
    exists_updated original (lawful_pods behavior version) hrooted
  refine ⟨withVersionedApps, result, happs, hpods, hresult, hversion, fun id => ?_, fun id => ?_⟩
  · exact (congrFun happ' id).trans (happ id)
  · exact (hpod' id).trans (congrArg _ (congrFun hpod id))

theorem exists_versioned_twoGroups : ∃ withVersionedApps,
    updateVersionInfoForChangedApps .off ⟨1⟩ Edit.twoGroups Edit.twoGroups =
      some withVersionedApps := by
  obtain ⟨withVersionedApps, -, happs, -⟩ :=
    exists_versioned .off ⟨1⟩ Edit.twoGroups Edit.rooted_twoGroups
  exact ⟨withVersionedApps, happs⟩

end GroupVersioningUtil

end Marathon
