import Marathon.AppInfo.DefaultInfoService
import Marathon.Lib.Collections

/-!
# What a selector shows

The view of a group is the tree of the groups that are accepted, or have something accepted below
them, each with its own accepted apps and pods. An app that is there but is not accepted is the one
query that fails.
-/

namespace Marathon.AppInfo

open Lib

open Marathon.Group (Within)

variable {AppInfo PodStatus : Type}

/-! ## Visible groups -/

section Visible

variable (selectors : Selectors)

/-- The group itself, or something that it holds. -/
def Accepted (g : Group) : Prop :=
  selectors.groupSelector g ∨ (∃ app ∈ g.apps.values, selectors.appSelector app) ∨
    ∃ pod ∈ g.pods.values, selectors.podSelector pod

/-- Something at or below the group is accepted. -/
def Visible (g : Group) : Prop := ∃ h, Within g h ∧ Accepted selectors h

/-- What is kept of a group: that it is visible, but for its own pods. -/
def Matched (g : Group) : Prop :=
  selectors.groupSelector g ∨ (∃ e ∈ g.groupsById, Visible selectors e.2) ∨
    ∃ app ∈ g.apps.values, selectors.appSelector app

variable {selectors} {g h : Group}

theorem Visible.of_within (hw : Within g h) (hh : Visible selectors h) : Visible selectors g := by
  obtain ⟨k, hk, haccepted⟩ := hh
  exact ⟨k, hw.trans hk, haccepted⟩

theorem visible_iff :
    Visible selectors g ↔
      Matched selectors g ∨ ∃ pod ∈ g.pods.values, selectors.podSelector pod := by
  constructor
  · rintro ⟨h, hw, haccepted⟩
    cases hw with
    | refl =>
      obtain hgroup | happ | hpod := haccepted
      · exact .inl (.inl hgroup)
      · exact .inl (.inr (.inr happ))
      · exact .inr hpod
    | child he hw => exact .inl (.inr (.inl ⟨_, he, h, hw, haccepted⟩))
  · rintro ((hgroup | ⟨e, he, hvisible⟩ | happ) | hpod)
    · exact ⟨g, .refl g, .inl hgroup⟩
    · exact hvisible.of_within (.child he (.refl _))
    · exact ⟨g, .refl g, .inr (.inl happ)⟩
    · exact ⟨g, .refl g, .inr (.inr hpod)⟩

end Visible

/-! ## Views -/

/-- `j` is `i` itself or a group below it. -/
inductive GroupInfo.Inside : GroupInfo AppInfo PodStatus → GroupInfo AppInfo PodStatus → Prop
  | refl (i : GroupInfo AppInfo PodStatus) : Inside i i
  | child {i j k : GroupInfo AppInfo PodStatus} (hj : j ∈ i.groups) (hk : Inside j k) : Inside i k

section Shows

variable (baseData : AppInfoBaseData AppInfo PodStatus) (selectors : Selectors)

/-- The view has the accepted apps and pods of the group, and a view of each of its visible groups. -/
inductive Shows : Group → GroupInfo AppInfo PodStatus → Prop
  | mk {g : Group} {i : GroupInfo AppInfo PodStatus} (children : List Group)
    (id : i.id = g.id.string)
    (apps : ∀ a, a ∈ i.apps ↔
      ∃ app ∈ g.apps.values, selectors.appSelector app ∧ baseData.appInfo app = a)
    (pods : ∀ p, p ∈ i.pods ↔
      ∃ pod ∈ g.pods.values, selectors.podSelector pod ∧ baseData.podStatus pod = p)
    (sublist : children.Sublist (g.groupsById.map Prod.snd))
    (visible : ∀ c, c ∈ children ↔ c ∈ g.groupsById.map Prod.snd ∧ Visible selectors c)
    (groups : List.Forall₂ Shows children i.groups) : Shows g i

variable {baseData selectors} {g : Group} {i j : GroupInfo AppInfo PodStatus}

theorem Shows.id (h : Shows baseData selectors g i) : i.id = g.id.string := by
  obtain ⟨_, hid, -, -, -, -, -⟩ := h
  exact hid

theorem Shows.apps (h : Shows baseData selectors g i) (a : AppInfo) : a ∈ i.apps ↔
    ∃ app ∈ g.apps.values, selectors.appSelector app ∧ baseData.appInfo app = a := by
  obtain ⟨_, -, happs, -, -, -, -⟩ := h
  exact happs a

theorem Shows.pods (h : Shows baseData selectors g i) (p : PodStatus) : p ∈ i.pods ↔
    ∃ pod ∈ g.pods.values, selectors.podSelector pod ∧ baseData.podStatus pod = p := by
  obtain ⟨_, -, -, hpods, -, -, -⟩ := h
  exact hpods p

theorem Shows.of_inside (h : Shows baseData selectors g i) (hg : Visible selectors g)
    (hj : i.Inside j) : ∃ k, Within g k ∧ Visible selectors k ∧ Shows baseData selectors k j := by
  induction hj generalizing g with
  | refl i => exact ⟨g, .refl g, hg, h⟩
  | child hmem _ ih =>
    obtain ⟨children, -, -, -, -, hvisible, hgroups⟩ := h
    obtain ⟨c, hc, hshows⟩ := exists_of_forall₂_right hgroups hmem
    obtain ⟨hchild, hc⟩ := (hvisible c).mp hc
    obtain ⟨e, he, rfl⟩ := List.mem_map.mp hchild
    obtain ⟨k, hk, hrest⟩ := ih hshows hc
    exact ⟨k, .child he hk, hrest⟩

theorem Shows.exists_inside (h : Shows baseData selectors g i) {k : Group} (hw : Within g k)
    (hk : Visible selectors k) : ∃ j, i.Inside j ∧ Shows baseData selectors k j := by
  induction hw generalizing i with
  | refl g => exact ⟨i, .refl i, h⟩
  | child he hw ih =>
    obtain ⟨children, -, -, -, -, hvisible, hgroups⟩ := h
    have hchild := (hvisible _).mpr ⟨List.mem_map_of_mem he, hk.of_within hw⟩
    obtain ⟨j, hj, hshows⟩ := exists_of_forall₂_left hgroups hchild
    obtain ⟨j', hinside, hrest⟩ := ih hshows hk
    exact ⟨j', .child hj hinside, hrest⟩

theorem Shows.mem_names (h : Shows baseData selectors g i) (hg : Visible selectors g)
    (name : String) : (∃ j, i.Inside j ∧ j.id = name) ↔
      ∃ k, Within g k ∧ Visible selectors k ∧ k.id.string = name := by
  constructor
  · rintro ⟨j, hj, rfl⟩
    obtain ⟨k, hw, hk, hshows⟩ := h.of_inside hg hj
    exact ⟨k, hw, hk, hshows.id.symm⟩
  · rintro ⟨k, hw, hk, rfl⟩
    obtain ⟨j, hj, hshows⟩ := h.exists_inside hw hk
    exact ⟨j, hj, hshows.id⟩

theorem Shows.mem_apps (h : Shows baseData selectors g i) (hg : Visible selectors g) (a : AppInfo) :
    (∃ j, i.Inside j ∧ a ∈ j.apps) ↔
      ∃ app ∈ g.transitiveApps, selectors.appSelector app ∧ baseData.appInfo app = a := by
  constructor
  · rintro ⟨j, hj, ha⟩
    obtain ⟨k, hw, -, hshows⟩ := h.of_inside hg hj
    obtain ⟨app, happ, haccepted⟩ := (hshows.apps a).mp ha
    exact ⟨app, Group.mem_transitive.mpr ⟨k, hw, happ⟩, haccepted⟩
  · rintro ⟨app, happ, haccepted, heq⟩
    obtain ⟨k, hw, happ⟩ := Group.mem_transitive.mp happ
    have hk : Visible selectors k := ⟨k, .refl k, .inr (.inl ⟨app, happ, haccepted⟩)⟩
    obtain ⟨j, hj, hshows⟩ := h.exists_inside hw hk
    exact ⟨j, hj, (hshows.apps a).mpr ⟨app, happ, haccepted, heq⟩⟩

theorem Shows.mem_pods (h : Shows baseData selectors g i) (hg : Visible selectors g)
    (p : PodStatus) : (∃ j, i.Inside j ∧ p ∈ j.pods) ↔
      ∃ pod ∈ g.transitivePods, selectors.podSelector pod ∧ baseData.podStatus pod = p := by
  constructor
  · rintro ⟨j, hj, hp⟩
    obtain ⟨k, hw, -, hshows⟩ := h.of_inside hg hj
    obtain ⟨pod, hpod, haccepted⟩ := (hshows.pods p).mp hp
    exact ⟨pod, Group.mem_transitive.mpr ⟨k, hw, hpod⟩, haccepted⟩
  · rintro ⟨pod, hpod, haccepted, heq⟩
    obtain ⟨k, hw, hpod⟩ := Group.mem_transitive.mp hpod
    have hk : Visible selectors k := ⟨k, .refl k, .inr (.inr ⟨pod, hpod, haccepted⟩)⟩
    obtain ⟨j, hj, hshows⟩ := h.exists_inside hw hk
    exact ⟨j, hj, (hshows.pods p).mpr ⟨pod, hpod, haccepted, heq⟩⟩

end Shows

/-! ## The infos of the accepted apps and pods -/

theorem lookup_insertAll_keyed {α β : Type} {f : α → β} {name : α → AbsolutePathId}
    {key : β → AbsolutePathId} (hkey : ∀ a, key (f a) = name a) {l : List α}
    (hunique : ∀ a ∈ l, ∀ a' ∈ l, name a = name a' → a = a') {id : AbsolutePathId} {b : β} :
    (Dict.insertAll ∅ ((l.map f).map fun b => (key b, b))).lookup id = some b ↔
      ∃ a ∈ l, name a = id ∧ f a = b := by
  have hmem : ∀ b, (id, b) ∈ ((l.map f).map fun b => (key b, b)) ↔ ∃ a ∈ l, name a = id ∧ f a = b := by
    intro b
    simp only [List.map_map, List.mem_map, Function.comp_apply, Prod.mk.injEq, hkey]
  constructor
  · intro h
    obtain hempty | hb := Dict.lookup_insertAll_eq_some h
    · cases hempty
    · exact (hmem b).mp hb
  · intro h
    obtain ⟨b', hlookup, hb'⟩ := Dict.exists_lookup_insertAll_of_mem
      (d := (∅ : Dict AbsolutePathId β)) ((hmem b).mpr h)
    obtain ⟨a, ha, hid, rfl⟩ := h
    obtain ⟨a', ha', hid', rfl⟩ := (hmem b').mp hb'
    rw [hlookup, hunique a ha a' ha' (hid.trans hid'.symm)]

section Found

variable (baseData : AppInfoBaseData AppInfo PodStatus) (selectors : Selectors) {top g : Group}

/-- The infos that are found for the apps of the groups within `top`. -/
def FindsApps (top : Group) (infoById : Dict AbsolutePathId AppInfo) : Prop :=
  ∀ g, Within top g → ∀ app ∈ g.apps.values, ∀ a, infoById.lookup app.id = some a ↔
    selectors.appSelector app ∧ baseData.appInfo app = a

def FindsPods (top : Group) (statusById : Dict AbsolutePathId PodStatus) : Prop :=
  ∀ g, Within top g → ∀ pod ∈ g.pods.values, ∀ p, statusById.lookup pod.id = some p ↔
    selectors.podSelector pod ∧ baseData.podStatus pod = p

theorem findsApps (htop : top.InPlace) :
    FindsApps baseData selectors top (infoById baseData top selectors) := by
  have hunique : ∀ app ∈ top.transitiveApps, ∀ app' ∈ top.transitiveApps, app.id = app'.id →
      app = app' := by
    intro app happ app' happ' hid
    have hfound := htop.app_eq_some.mpr ⟨happ, rfl⟩
    have hfound' := htop.app_eq_some.mpr ⟨happ', hid.symm⟩
    exact Option.some.inj (hfound.symm.trans hfound')
  intro g hw app happ a
  have htransitive : app ∈ top.transitiveApps := Group.mem_transitive.mpr ⟨g, hw, happ⟩
  rw [infoById, resolveAppInfos, lookup_insertAll_keyed baseData.infoId_appInfo fun app happ app' happ' =>
    hunique app (List.mem_of_mem_filter happ) app' (List.mem_of_mem_filter happ')]
  constructor
  · rintro ⟨app', happ', hid, rfl⟩
    obtain ⟨hmem, haccepted⟩ := List.mem_filter.mp happ'
    obtain rfl := hunique app' hmem app htransitive hid
    exact ⟨haccepted, rfl⟩
  · rintro ⟨haccepted, rfl⟩
    exact ⟨app, List.mem_filter.mpr ⟨htransitive, haccepted⟩, rfl, rfl⟩

theorem findsPods (htop : top.InPlace) :
    FindsPods baseData selectors top (statusById baseData top selectors) := by
  have hunique : ∀ pod ∈ top.transitivePods, ∀ pod' ∈ top.transitivePods, pod.id = pod'.id →
      pod = pod' := by
    intro pod hpod pod' hpod' hid
    have hfound := htop.pod_eq_some.mpr ⟨hpod, rfl⟩
    have hfound' := htop.pod_eq_some.mpr ⟨hpod', hid.symm⟩
    exact Option.some.inj (hfound.symm.trans hfound')
  intro g hw pod hpod p
  have htransitive : pod ∈ top.transitivePods := Group.mem_transitive.mpr ⟨g, hw, hpod⟩
  rw [statusById, resolvePodInfos, lookup_insertAll_keyed baseData.statusId_podStatus
    fun pod hpod pod' hpod' =>
      hunique pod (List.mem_of_mem_filter hpod) pod' (List.mem_of_mem_filter hpod')]
  constructor
  · rintro ⟨pod', hpod', hid, rfl⟩
    obtain ⟨hmem, haccepted⟩ := List.mem_filter.mp hpod'
    obtain rfl := hunique pod' hmem pod htransitive hid
    exact ⟨haccepted, rfl⟩
  · rintro ⟨haccepted, rfl⟩
    exact ⟨pod, List.mem_filter.mpr ⟨htransitive, haccepted⟩, rfl, rfl⟩

end Found

/-! ## Matching each group once -/

section Matching

variable (selectors : Selectors) (infoById : Dict AbsolutePathId AppInfo)
  (statusById : Dict AbsolutePathId PodStatus)

theorem groupMatches_eq (g : Group) (alreadyMatched : AlreadyMatched) :
    groupMatches selectors.groupSelector infoById statusById g alreadyMatched =
      let kept := match alreadyMatched.lookup g.id with
        | some matched => (matched, alreadyMatched)
        | none =>
          let found := if selectors.groupSelector g then (true, alreadyMatched)
            else
              let below := entriesMatch selectors.groupSelector infoById statusById g.groupsById
                alreadyMatched
              (below.1 || g.apps.keys.any (infoById.lookup · |>.isSome), below.2)
          (found.1, found.2.insert g.id found.1)
      (kept.1 || g.pods.keys.any (statusById.lookup · |>.isSome), kept.2) := by
  obtain ⟨id, apps, pods, groupsById, dependencies, version, enforceRole⟩ := g
  unfold groupMatches
  rfl

theorem entriesMatch_cons (e : AbsolutePathId × Group) (entries : List (AbsolutePathId × Group))
    (alreadyMatched : AlreadyMatched) :
    entriesMatch selectors.groupSelector infoById statusById (e :: entries) alreadyMatched =
      let matched := groupMatches selectors.groupSelector infoById statusById e.2 alreadyMatched
      if matched.1 then (true, matched.2)
      else entriesMatch selectors.groupSelector infoById statusById entries matched.2 := by
  obtain ⟨id, child⟩ := e
  rw [entriesMatch, entryMatches]

/-- What is kept of a group within `top` is whether it matches. -/
def Remembers (top : Group) (alreadyMatched : AlreadyMatched) : Prop :=
  ∀ g, Within top g → ∀ matched, alreadyMatched.lookup g.id = some matched →
    (matched = true ↔ Matched selectors g)

variable {selectors infoById statusById} {top g : Group} {alreadyMatched : AlreadyMatched}

theorem remembers_empty : Remembers selectors top ∅ := fun _ _ _ h => nomatch h

theorem Remembers.insert (h : Remembers selectors top alreadyMatched) (htop : top.InPlace)
    (hg : Within top g) {matched : Bool} (hmatched : matched = true ↔ Matched selectors g) :
    Remembers selectors top (alreadyMatched.insert g.id matched) := by
  intro k hk kept hlookup
  obtain ⟨hid, rfl⟩ | ⟨-, hold⟩ := Dict.lookup_insert_eq_some.mp hlookup
  · obtain rfl := htop.unique hk hg hid
    exact hmatched
  · exact h k hk kept hold

variable {baseData : AppInfoBaseData AppInfo PodStatus}

theorem any_apps_iff (hfinds : FindsApps baseData selectors top infoById) (hg : Within top g) :
    g.apps.keys.any (infoById.lookup · |>.isSome) = true ↔
      ∃ app ∈ g.apps.values, selectors.appSelector app := by
  rw [List.any_eq_true, Keyed.keys_eq]
  simp only [List.mem_map, exists_exists_and_eq_and, Option.isSome_iff_exists]
  refine exists_congr fun app => and_congr_right fun happ => ?_
  exact ⟨fun ⟨a, ha⟩ => ((hfinds g hg app happ a).mp ha).1,
    fun haccepted => ⟨_, (hfinds g hg app happ _).mpr ⟨haccepted, rfl⟩⟩⟩

theorem any_pods_iff (hfinds : FindsPods baseData selectors top statusById) (hg : Within top g) :
    g.pods.keys.any (statusById.lookup · |>.isSome) = true ↔
      ∃ pod ∈ g.pods.values, selectors.podSelector pod := by
  rw [List.any_eq_true, Keyed.keys_eq]
  simp only [List.mem_map, exists_exists_and_eq_and, Option.isSome_iff_exists]
  refine exists_congr fun pod => and_congr_right fun hpod => ?_
  exact ⟨fun ⟨p, hp⟩ => ((hfinds g hg pod hpod p).mp hp).1,
    fun haccepted => ⟨_, (hfinds g hg pod hpod _).mpr ⟨haccepted, rfl⟩⟩⟩

/-- What is found out of a group, and what is known afterwards. -/
def FindsOut (selectors : Selectors) (top : Group) (holds : Prop)
    (result : Bool × AlreadyMatched) : Prop :=
  (result.1 = true ↔ holds) ∧ Remembers selectors top result.2

theorem findsOut_entries {entries : List (AbsolutePathId × Group)}
    (hentries : ∀ e ∈ entries, ∀ known, Remembers selectors top known →
      FindsOut selectors top (Visible selectors e.2)
        (groupMatches selectors.groupSelector infoById statusById e.2 known))
    (h : Remembers selectors top alreadyMatched) :
    FindsOut selectors top (∃ e ∈ entries, Visible selectors e.2)
      (entriesMatch selectors.groupSelector infoById statusById entries alreadyMatched) := by
  induction entries generalizing alreadyMatched with
  | nil =>
    rw [entriesMatch]
    exact ⟨by simp, h⟩
  | cons e entries ih =>
    obtain ⟨hvisible, hremembers⟩ := hentries e List.mem_cons_self alreadyMatched h
    simp only [entriesMatch_cons, List.exists_mem_cons_iff]
    split_ifs with hmatched
    · exact ⟨iff_of_true rfl (.inl (hvisible.mp hmatched)), hremembers⟩
    · obtain ⟨hrest, hremembers'⟩ :=
        ih (fun e he => hentries e (List.mem_cons_of_mem _ he)) hremembers
      refine ⟨hrest.trans ?_, hremembers'⟩
      exact ⟨.inr, fun hor => hor.resolve_left fun hchild => hmatched (hvisible.mpr hchild)⟩

theorem findsOut_groupMatches (htop : top.InPlace)
    (happs : FindsApps baseData selectors top infoById)
    (hpods : FindsPods baseData selectors top statusById) (hg : Within top g)
    (h : Remembers selectors top alreadyMatched) :
    FindsOut selectors top (Visible selectors g)
      (groupMatches selectors.groupSelector infoById statusById g alreadyMatched) := by
  induction g using Group.induction generalizing alreadyMatched with
  | h g ih =>
    have hkept : ∀ {kept : Bool × AlreadyMatched},
        FindsOut selectors top (Matched selectors g) kept →
          FindsOut selectors top (Visible selectors g)
            (kept.1 || g.pods.keys.any (statusById.lookup · |>.isSome), kept.2) := by
      intro kept hkept
      refine ⟨?_, hkept.2⟩
      rw [Bool.or_eq_true, hkept.1, any_pods_iff hpods hg, visible_iff]
    rw [groupMatches_eq]
    refine hkept ?_
    cases hlookup : alreadyMatched.lookup g.id with
    | some matched => exact ⟨h g hg matched hlookup, h⟩
    | none =>
      have hinsert : ∀ {found : Bool × AlreadyMatched},
          FindsOut selectors top (Matched selectors g) found →
            FindsOut selectors top (Matched selectors g) (found.1, found.2.insert g.id found.1) :=
        fun hfound => ⟨hfound.1, hfound.2.insert htop hg hfound.1⟩
      refine hinsert ?_
      split_ifs with haccepted
      · exact ⟨iff_of_true rfl (.inl haccepted), h⟩
      · obtain ⟨hbelow, hremembers⟩ := findsOut_entries
          (fun e he known hknown => ih e he (hg.trans (.child he (.refl _))) hknown) h
        refine ⟨?_, hremembers⟩
        rw [Bool.or_eq_true, hbelow, any_apps_iff happs hg, Matched]
        exact ⟨.inr, fun hor => hor.resolve_left haccepted⟩

/-! ## The view of a group -/

def everything : Finset Embed := {.groups, .apps, .pods}

theorem queryGroup_eq (g : Group) (alreadyMatched : AlreadyMatched) :
    queryGroup selectors.groupSelector infoById statusById everything g alreadyMatched =
      let matched := groupMatches selectors.groupSelector infoById statusById g alreadyMatched
      if matched.1 then
        let groups := queryEntries selectors.groupSelector infoById statusById everything g.groupsById
          matched.2
        (some {
          id := g.id.string
          apps := g.apps.keys.filterMap infoById.lookup
          pods := g.pods.keys.filterMap statusById.lookup
          groups := groups.1
          dependencies := g.dependencies
          version := g.version
          enforceRole := g.enforceRole }, groups.2)
      else (none, matched.2) := by
  obtain ⟨id, apps, pods, groupsById, dependencies, version, enforceRole⟩ := g
  unfold queryGroup
  rfl

/-- The answer for a group, and what is known afterwards. -/
def ShownOut (baseData : AppInfoBaseData AppInfo PodStatus) (selectors : Selectors) (top g : Group)
    (result : Option (GroupInfo AppInfo PodStatus) × AlreadyMatched) : Prop :=
  (∀ i, result.1 = some i → Visible selectors g ∧ Shows baseData selectors g i) ∧
    (result.1 = none → ¬ Visible selectors g) ∧ Remembers selectors top result.2

theorem shows_entries {entries : List (AbsolutePathId × Group)}
    (hentries : ∀ e ∈ entries, ∀ known, Remembers selectors top known →
      ShownOut baseData selectors top e.2
        (queryGroup selectors.groupSelector infoById statusById everything e.2 known))
    (h : Remembers selectors top alreadyMatched) :
    let result := queryEntries selectors.groupSelector infoById statusById everything entries
      alreadyMatched
    (∃ children : List Group, children.Sublist (entries.map Prod.snd) ∧
      (∀ c, c ∈ children ↔ c ∈ entries.map Prod.snd ∧ Visible selectors c) ∧
        List.Forall₂ (Shows baseData selectors) children result.1) ∧
      Remembers selectors top result.2 := by
  induction entries generalizing alreadyMatched with
  | nil =>
    rw [queryEntries]
    exact ⟨⟨[], .slnil, by simp, .nil⟩, h⟩
  | cons e entries ih =>
    obtain ⟨hsome, hnone, hremembers⟩ := hentries e List.mem_cons_self alreadyMatched h
    obtain ⟨id, child⟩ := e
    obtain ⟨⟨children, hsublist, hvisible, hgroups⟩, hremembers'⟩ :=
      ih (fun e he => hentries e (List.mem_cons_of_mem _ he)) hremembers
    simp only [queryEntries, queryEntry]
    refine ⟨?_, hremembers'⟩
    cases hresult : (queryGroup selectors.groupSelector infoById statusById everything child
        alreadyMatched).1 with
    | some i =>
      obtain ⟨hchild, hshows⟩ := hsome i hresult
      refine ⟨child :: children, hsublist.cons_cons _, fun c => ?_, .cons hshows hgroups⟩
      rw [List.mem_cons, hvisible, List.map_cons, List.mem_cons]
      constructor
      · rintro (rfl | ⟨hc, hcvisible⟩)
        · exact ⟨.inl rfl, hchild⟩
        · exact ⟨.inr hc, hcvisible⟩
      · rintro ⟨rfl | hc, hcvisible⟩
        · exact .inl rfl
        · exact .inr ⟨hc, hcvisible⟩
    | none =>
      refine ⟨children, hsublist.cons _, fun c => ?_, hgroups⟩
      rw [hvisible, List.map_cons, List.mem_cons]
      constructor
      · exact fun ⟨hc, hcvisible⟩ => ⟨.inr hc, hcvisible⟩
      · rintro ⟨rfl | hc, hcvisible⟩
        · exact absurd hcvisible (hnone hresult)
        · exact ⟨hc, hcvisible⟩

theorem mem_filterMap_apps (hfinds : FindsApps baseData selectors top infoById) (hg : Within top g)
    (a : AppInfo) : a ∈ g.apps.keys.filterMap infoById.lookup ↔
      ∃ app ∈ g.apps.values, selectors.appSelector app ∧ baseData.appInfo app = a := by
  rw [List.mem_filterMap, Keyed.keys_eq]
  simp only [List.mem_map, exists_exists_and_eq_and]
  exact exists_congr fun app => and_congr_right fun happ => hfinds g hg app happ a

theorem mem_filterMap_pods (hfinds : FindsPods baseData selectors top statusById)
    (hg : Within top g) (p : PodStatus) : p ∈ g.pods.keys.filterMap statusById.lookup ↔
      ∃ pod ∈ g.pods.values, selectors.podSelector pod ∧ baseData.podStatus pod = p := by
  rw [List.mem_filterMap, Keyed.keys_eq]
  simp only [List.mem_map, exists_exists_and_eq_and]
  exact exists_congr fun pod => and_congr_right fun hpod => hfinds g hg pod hpod p

theorem shownOut_queryGroup (htop : top.InPlace) (happs : FindsApps baseData selectors top infoById)
    (hpods : FindsPods baseData selectors top statusById) (hg : Within top g)
    (h : Remembers selectors top alreadyMatched) :
    ShownOut baseData selectors top g
      (queryGroup selectors.groupSelector infoById statusById everything g alreadyMatched) := by
  induction g using Group.induction generalizing alreadyMatched with
  | h g ih =>
    obtain ⟨hvisible, hremembers⟩ := findsOut_groupMatches htop happs hpods hg h
    rw [queryGroup_eq]
    simp only
    split_ifs with hmatched
    · obtain ⟨⟨children, hsublist, hchildren, hgroups⟩, hremembers'⟩ := shows_entries
        (fun e he known hknown => ih e he (hg.trans (.child he (.refl _))) hknown) hremembers
      refine ⟨fun i hi => ⟨hvisible.mp hmatched, ?_⟩, nofun, hremembers'⟩
      cases hi
      exact .mk children rfl (mem_filterMap_apps happs hg) (mem_filterMap_pods hpods hg) hsublist
        hchildren hgroups
    · exact ⟨nofun, fun _ hg' => hmatched (hvisible.mpr hg'), hremembers⟩

theorem shownOut_queryForGroup (htop : top.InPlace) :
    (∀ i, queryForGroup baseData top selectors everything = some i →
      Visible selectors top ∧ Shows baseData selectors top i) ∧
        (queryForGroup baseData top selectors everything = none → ¬ Visible selectors top) := by
  have hshown := shownOut_queryGroup htop (findsApps baseData selectors htop)
    (findsPods baseData selectors htop) (.refl top) remembers_empty
  exact ⟨hshown.1, hshown.2.1⟩

end Matching

/-! ## The selectors are respected -/

section Respected

variable (baseData : AppInfoBaseData AppInfo PodStatus) (root : RootGroup) (selectors : Selectors)
  (groupId appId podId : AbsolutePathId)

/-- What is shown of a group, and what is answered to the other queries, is what is there and is
accepted. -/
structure RespectsSelectors : Prop where
  hidden : selectGroup baseData root groupId selectors everything = none ↔
    ∀ g, root.group groupId = some g → ¬ Visible selectors g
  shown : ∀ i, selectGroup baseData root groupId selectors everything = some i →
    ∃ g, root.group groupId = some g ∧ Shows baseData selectors g i ∧
      (∀ name, (∃ j, i.Inside j ∧ j.id = name) ↔
        ∃ h, Within g h ∧ Visible selectors h ∧ h.id.string = name) ∧
      (∀ a, (∃ j, i.Inside j ∧ a ∈ j.apps) ↔
        ∃ app ∈ g.transitiveApps, selectors.appSelector app ∧ baseData.appInfo app = a) ∧
      ∀ p, (∃ j, i.Inside j ∧ p ∈ j.pods) ↔
        ∃ pod ∈ g.transitivePods, selectors.podSelector pod ∧ baseData.podStatus pod = p
  app : ∃ answer, selectApp baseData root appId selectors.appSelector = .ok answer ∧
    ∀ a, answer = some a ↔
      ∃ app, root.app appId = some app ∧ selectors.appSelector app ∧ baseData.appInfo app = a
  pod : ∀ p, selectPodStatus baseData root podId selectors.podSelector = some p ↔
    ∃ pod, root.pod podId = some pod ∧ selectors.podSelector pod ∧ baseData.podStatus pod = p
  appsInGroup : ∀ a, a ∈ selectAppsInGroup baseData root groupId selectors.appSelector ↔
    ∃ g, root.group groupId = some g ∧
      ∃ app ∈ g.transitiveApps, selectors.appSelector app ∧ baseData.appInfo app = a

variable {baseData root selectors groupId appId podId}

theorem exists_selectApp_iff :
    (∃ answer, selectApp baseData root appId selectors.appSelector = .ok answer ∧
      ∀ a, answer = some a ↔
        ∃ app, root.app appId = some app ∧ selectors.appSelector app ∧ baseData.appInfo app = a) ↔
      ∀ app, root.app appId = some app → selectors.appSelector app = true := by
  unfold selectApp
  cases root.app appId with
  | none => simp
  | some app =>
    cases haccepted : selectors.appSelector app with
    | true => simp [haccepted]
    | false => simp [haccepted]

theorem selectPodStatus_eq_some {p : PodStatus} :
    selectPodStatus baseData root podId selectors.podSelector = some p ↔
      ∃ pod, root.pod podId = some pod ∧ selectors.podSelector pod ∧ baseData.podStatus pod = p := by
  unfold selectPodStatus
  simp only [Option.map_eq_some_iff, Option.filter_eq_some_iff, and_assoc]

theorem mem_selectAppsInGroup {a : AppInfo} :
    a ∈ selectAppsInGroup baseData root groupId selectors.appSelector ↔
      ∃ g, root.group groupId = some g ∧
        ∃ app ∈ g.transitiveApps, selectors.appSelector app ∧ baseData.appInfo app = a := by
  unfold selectAppsInGroup resolveAppInfos
  cases root.group groupId with
  | none => simp
  | some g => simp [and_assoc]

theorem respectsSelectors_iff (hroot : root.InPlace) :
    RespectsSelectors baseData root selectors groupId appId podId ↔
      ∀ app, root.app appId = some app → selectors.appSelector app = true := by
  refine ⟨fun h => exists_selectApp_iff.mp h.app, fun h => ?_⟩
  have hview : ∀ g, root.group groupId = some g →
      selectGroup baseData root groupId selectors everything =
        queryForGroup baseData g selectors everything := by
    intro g hg
    rw [selectGroup, hg]
  have hshown : ∀ g, root.group groupId = some g →
      (∀ i, queryForGroup baseData g selectors everything = some i →
        Visible selectors g ∧ Shows baseData selectors g i) ∧
          (queryForGroup baseData g selectors everything = none → ¬ Visible selectors g) :=
    fun g hg => shownOut_queryForGroup (hroot.of_within (hroot.group_eq_some.mp hg).1)
  exact {
    hidden := by
      cases hg : root.group groupId with
      | none => simp [selectGroup, hg]
      | some g =>
        obtain ⟨hsome, hnone⟩ := hshown g hg
        rw [hview g hg]
        constructor
        · intro heq g' hg'
          cases hg'
          exact hnone heq
        · intro hinvisible
          refine Option.eq_none_iff_forall_ne_some.mpr fun i hi => ?_
          exact hinvisible g rfl (hsome i hi).1
    shown := fun i hi => by
      cases hg : root.group groupId with
      | none =>
        rw [selectGroup, hg] at hi
        cases hi
      | some g =>
        rw [hview g hg] at hi
        obtain ⟨hvisible, hshows⟩ := (hshown g hg).1 i hi
        exact ⟨g, rfl, hshows, hshows.mem_names hvisible, hshows.mem_apps hvisible,
          hshows.mem_pods hvisible⟩
    app := exists_selectApp_iff.mpr h
    pod := fun p => selectPodStatus_eq_some
    appsInGroup := fun a => mem_selectAppsInGroup }

end Respected

/-! ### An app that is not accepted -/

namespace Hidden

def appId : AbsolutePathId := ⟨["web", "app"]⟩

def root : RootGroup := plainRoot [plainGroup ⟨["web"]⟩ [plainApp appId ∅] [] ∅]

def baseData : AppInfoBaseData AbsolutePathId AbsolutePathId :=
  ⟨AppDefinition.id, PodDefinition.id, id, id, fun _ => rfl, fun _ => rfl⟩

theorem inPlace_root : root.InPlace :=
  (Group.validRoot_plainRoot (by decide) (by decide) (by decide) (by decide)).inPlace

theorem respectsSelectors_all :
    RespectsSelectors baseData root .all ⟨["web"]⟩ appId ⟨["web", "pod"]⟩ :=
  (respectsSelectors_iff inPlace_root).mpr fun _ _ => rfl

theorem not_forall_respectsSelectors : ¬ ∀ (root : RootGroup) (selectors : Selectors)
    (groupId appId podId : AbsolutePathId), root.InPlace →
      RespectsSelectors baseData root selectors groupId appId podId := by
  intro h
  obtain ⟨answer, hanswer, -⟩ := (h root .none .root appId appId inPlace_root).app
  cases hanswer

end Hidden

end Marathon.AppInfo
