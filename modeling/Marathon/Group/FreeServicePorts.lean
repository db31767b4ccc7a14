import Marathon.Group.AssignDynamicServiceLogic
import Marathon.State.FlatDefinitions

/-!
# Free service ports

Ports of the range that no app uses are free. A port that an app had before need not be: another
app may ask for it now.
-/

namespace Marathon.AssignDynamicServiceLogic

open Lib

variable {behavior : NewGroupEnforceRoleBehavior} {portRange : PortRange}
  {original target result : RootGroup}

/-- The zeros of all new and changed apps. -/
def demands (portRange : PortRange) (original target : RootGroup) : List (Demand ℤ) :=
  (changedApps original target).map (demand portRange original)

/-! ## Replacing the apps -/

/-- The apps are in the place of those with their ids, the others stay. -/
structure Replaces (target result : RootGroup) (apps : List AppDefinition) : Prop where
  rooted : result.Rooted
  new : ∀ app ∈ apps, result.app app.id = some app
  other : ∀ x, x ∉ apps.map AppDefinition.id → result.app x = target.app x

theorem foldlM_updateApp (behavior : NewGroupEnforceRoleBehavior) (hr : target.Rooted) {apps : List AppDefinition}
    (hnodup : (apps.map AppDefinition.id).Nodup) :
    ∃ result, apps.foldlM (fun rootGroup app =>
        rootGroup.updateApp behavior app.id (fun _ => app) app.version) target = some result ∧
      Replaces target result apps := by
  induction apps generalizing target with
  | nil => exact ⟨target, rfl, hr, fun _ h => absurd h List.not_mem_nil, fun _ _ => rfl⟩
  | cons app apps ih =>
    rw [List.map_cons, List.nodup_cons] at hnodup
    obtain ⟨next, hnext, hrooted, happ⟩ := hr.app_updateApp behavior app app.version
    obtain ⟨result, hresult, hreplaces⟩ := ih hrooted hnodup.2
    refine ⟨result, ?_, hreplaces.rooted, ?_, ?_⟩
    · rw [List.foldlM_cons, hnext]
      exact hresult
    · refine List.forall_mem_cons.mpr ⟨?_, hreplaces.new⟩
      rw [hreplaces.other app.id hnodup.1, happ, if_pos rfl]
    · intro x hx
      obtain ⟨hne, hx⟩ := not_or.mp (List.mem_cons.not.mp hx)
      rw [hreplaces.other x hx, happ, if_neg hne]

namespace Replaces

variable {apps : List AppDefinition} (h : Replaces target result apps)

include h

theorem transitiveApps_perm (hr : target.Rooted) (hnodup : (apps.map AppDefinition.id).Nodup) :
    result.transitiveApps.Perm
      (apps ++ target.transitiveApps.filter fun app => app.id ∉ apps.map AppDefinition.id) := by
  have hids {root : RootGroup} (hroot : root.Rooted) : root.transitiveApps.Nodup := by
    refine List.Nodup.of_map AppDefinition.id ?_
    rw [Group.map_id_transitiveApps]
    exact hroot.inPlace.nodup_transitiveAppIds
  rw [List.perm_ext_iff_of_nodup (hids h.rooted)]
  · intro app
    have hmem : result.app app.id = some app ↔ app ∈ result.transitiveApps :=
      h.rooted.inPlace.app_eq_some.trans (and_iff_left rfl)
    rw [← hmem, List.mem_append, List.mem_filter]
    by_cases hid : app.id ∈ apps.map AppDefinition.id
    · obtain ⟨new, hnew, hsame⟩ := List.mem_map.mp hid
      constructor
      · intro heq
        rw [← hsame, h.new new hnew] at heq
        cases heq
        exact .inl hnew
      · rintro (happ | ⟨-, hnot⟩)
        · exact h.new app happ
        · exact absurd hid (of_decide_eq_true hnot)
    · have hnew : app ∉ apps := fun happ => hid (List.mem_map_of_mem happ)
      rw [h.other app.id hid, hr.inPlace.app_eq_some, and_iff_left rfl]
      simp [hnew, hid]
  · rw [List.nodup_append']
    refine ⟨hnodup.of_map, (hids hr).filter _, ?_⟩
    intro app happ happ'
    have hid := List.mem_map_of_mem (f := AppDefinition.id) happ
    exact absurd hid (of_decide_eq_true (List.mem_filter.mp happ').2)

end Replaces

section Placed

/-- The app with ports for its zeros. -/
def placed (app : AppDefinition) (ports : List ℤ) : AppDefinition :=
  withServicePorts app (fill AppDefinition.randomPortValue app.servicePorts ports)

theorem servicePorts_placed (app : AppDefinition) (ports : List ℤ) :
    (placed app ports).servicePorts =
      fill AppDefinition.randomPortValue app.servicePorts ports :=
  servicePorts_withServicePorts (length_fill _ _)

variable {apps : List AppDefinition} {given : List (List ℤ)}
  (h : List.Forall₂ (fun app ports => ports.length =
    app.servicePorts.count AppDefinition.randomPortValue) apps given)

include h

theorem map_id_placed :
    (apps.zipWith placed given).map AppDefinition.id = apps.map AppDefinition.id := by
  induction h with
  | nil => rfl
  | cons _ _ ih => exact congrArg (List.cons _) ih

theorem servicePorts_placed_perm :
    ((apps.zipWith placed given).flatMap AppDefinition.servicePorts).Perm
      (given.flatten ++ apps.flatMap fun app =>
        app.servicePorts.filter (· ≠ AppDefinition.randomPortValue)) := by
  induction h with
  | nil => exact .nil
  | @cons app ports apps given hlength _ ih =>
    rw [List.zipWith_cons_cons, List.flatMap_cons, List.flatMap_cons, List.flatten_cons,
      servicePorts_placed, List.append_assoc]
    refine ((fill_perm hlength).append ih).trans ?_
    rw [List.append_assoc]
    refine .append_left _ ?_
    rw [← List.append_assoc, ← List.append_assoc]
    exact List.perm_append_comm.append_right _

theorem exists_placed {app : AppDefinition} (happ : app ∈ apps) :
    ∃ ports ∈ given, ports.length = app.servicePorts.count AppDefinition.randomPortValue ∧
      placed app ports ∈ apps.zipWith placed given := by
  induction h with
  | nil => cases happ
  | @cons first ports apps given hlength _ ih =>
    rcases List.mem_cons.mp happ with rfl | happ
    · exact ⟨ports, List.mem_cons_self, hlength, List.mem_cons_self⟩
    · obtain ⟨ports', hports, hlength', hmem⟩ := ih happ
      exact ⟨ports', List.mem_cons_of_mem _ hports, hlength', List.mem_cons_of_mem _ hmem⟩

theorem exists_app {ports : List ℤ} (hports : ports ∈ given) :
    ∃ app ∈ apps, ports.length = app.servicePorts.count AppDefinition.randomPortValue ∧
      placed app ports ∈ apps.zipWith placed given := by
  induction h with
  | nil => cases hports
  | @cons app first apps given hlength _ ih =>
    rcases List.mem_cons.mp hports with rfl | hports
    · exact ⟨app, List.mem_cons_self, hlength, List.mem_cons_self⟩
    · obtain ⟨app', happ, hlength', hmem⟩ := ih hports
      exact ⟨app', List.mem_cons_of_mem _ happ, hlength', List.mem_cons_of_mem _ hmem⟩

end Placed

/-! ## What an assignment promises -/

/-- The root group has a free port for every zero of the new and changed apps: one of the range,
that is a service port once. Nothing else changes in their service ports, and nothing at all in the
other apps. -/
structure Assigns (portRange : PortRange) (original target result : RootGroup) : Prop where
  ids : ∀ id, (result.app id).isSome = (target.app id).isSome
  untouched : ∀ app ∈ target.transitiveApps, changedOrNew original app = false →
    result.app app.id = some app
  assigned : ∀ app ∈ target.transitiveApps, changedOrNew original app = true →
    ∃ new, result.app app.id = some new ∧
      AppDefinition.randomPortValue ∉ new.servicePorts ∧
      List.Forall₂ (fun port port' => port = port' ∨ port = AppDefinition.randomPortValue)
        app.servicePorts new.servicePorts ∧
      ∀ p ∈ filled AppDefinition.randomPortValue app.servicePorts new.servicePorts,
        p ∈ portRange.ports ∧ (allServicePorts result).count p = 1

/-- Ports run out only if there is no way to give every app distinct ports for its zeros, of those
that it had and no longer requests and of those that no app uses. -/
def Promise (portRange : PortRange) (original target : RootGroup) :
    Except Failure RootGroup → Prop
  | .ok result => Assigns portRange original target result
  | .error (.portRangeExhausted _ _) =>
    ¬∃ given, Demand.Serves (unassignedPorts portRange original target)
      (demands portRange original target) given
  | .error _ => True

/-- The ports that apps get once more are distinct, and no app requests them. -/
def ReusesFreePorts (portRange : PortRange) (original target : RootGroup) : Prop :=
  (Demand.allReused (demands portRange original target)).Nodup ∧
    ∀ p ∈ Demand.allReused (demands portRange original target), p ∉ allServicePorts target


/-! ## When the promise is kept -/

section Changed

variable (hr : target.Rooted)

include hr

theorem nodup_map_id_changedApps (original : RootGroup) : ((changedApps original target).map AppDefinition.id).Nodup := by
  refine List.Nodup.sublist (List.filter_sublist.map _) ?_
  rw [Group.map_id_transitiveApps]
  exact hr.inPlace.nodup_transitiveAppIds

theorem id_mem_changedApps {app : AppDefinition} (happ : app ∈ target.transitiveApps) :
    app.id ∈ (changedApps original target).map AppDefinition.id ↔
      changedOrNew original app = true := by
  rw [List.mem_map]
  constructor
  · rintro ⟨app', happ', hid⟩
    obtain ⟨happ', hchanged⟩ := List.mem_filter.mp happ'
    have hl := hr.inPlace.app_eq_some.mpr ⟨happ', hid⟩
    rw [hr.inPlace.app_eq_some.mpr ⟨happ, rfl⟩] at hl
    rwa [Option.some.inj hl]
  · exact fun hchanged => ⟨app, List.mem_filter.mpr ⟨happ, hchanged⟩, rfl⟩

theorem assignDynamicServicePorts_eq (behavior : NewGroupEnforceRoleBehavior)
    (portRange : PortRange) (original : RootGroup) :
    match Demand.serve (demands portRange original target)
      (unassignedPorts portRange original target) with
    | some given => ∃ result,
        assignDynamicServicePorts behavior portRange original target = .ok result ∧
          Replaces target result ((changedApps original target).zipWith placed given)
    | none =>
      assignDynamicServicePorts behavior portRange original target = .error portRange.exhausted := by
  rw [assignDynamicServicePorts, dynamicApps_eq]
  cases hserve : Demand.serve (demands portRange original target)
    (unassignedPorts portRange original target) with
  | none =>
    rw [demands] at hserve
    rw [hserve]
  | some given =>
    have hlength := Demand.length_of_serve hserve
    rw [demands, List.forall₂_map_left_iff] at hlength
    have hids := map_id_placed hlength
    rw [demands] at hserve
    rw [hserve]
    have hnodup := nodup_map_id_changedApps hr original
    rw [← hids] at hnodup
    obtain ⟨result, hresult, hreplaces⟩ := foldlM_updateApp behavior hr hnodup
    refine ⟨result, ?_, hreplaces⟩
    unfold placed at hresult
    dsimp only
    rw [hresult]

theorem allServicePorts_perm {given : List (List ℤ)}
    (hlength : List.Forall₂ (fun app ports => ports.length =
      app.servicePorts.count AppDefinition.randomPortValue) (changedApps original target) given)
    (hreplaces : Replaces target result ((changedApps original target).zipWith placed given)) :
    (allServicePorts result).Perm (given.flatten ++
      (((changedApps original target).flatMap fun app =>
          app.servicePorts.filter (· ≠ AppDefinition.randomPortValue)) ++
        (target.transitiveApps.filter fun app => !changedOrNew original app).flatMap
          AppDefinition.servicePorts)) := by
  have hids := map_id_placed hlength
  have hnodup := nodup_map_id_changedApps hr original
  have hperm := hreplaces.transitiveApps_perm hr (hids ▸ hnodup)
  have hrest : (target.transitiveApps.filter fun app => decide (app.id ∉
      (List.zipWith placed (changedApps original target) given).map AppDefinition.id)) =
      target.transitiveApps.filter fun app => !changedOrNew original app := by
    refine List.filter_congr fun app happ => ?_
    rw [hids, decide_not, Bool.eq_iff_iff]
    simp only [Bool.not_eq_true', decide_eq_false_iff_not, id_mem_changedApps hr happ,
      Bool.not_eq_true]
  rw [hrest] at hperm
  rw [allServicePorts]
  refine (hperm.flatMap_right _).trans ?_
  rw [List.flatMap_append, ← List.append_assoc]
  exact (servicePorts_placed_perm hlength).append_right _

omit hr in
theorem mem_allServicePorts_iff (original : RootGroup) {p : ℤ} (hp : p ≠ AppDefinition.randomPortValue) :
    p ∈ ((changedApps original target).flatMap fun app =>
          app.servicePorts.filter (· ≠ AppDefinition.randomPortValue)) ++
        (target.transitiveApps.filter fun app => !changedOrNew original app).flatMap
          AppDefinition.servicePorts ↔ p ∈ allServicePorts target := by
  simp only [List.mem_append, List.mem_flatMap, List.mem_filter, changedApps, allServicePorts, hp,
    ne_eq, not_false_eq_true, decide_true, and_true, Bool.not_eq_true']
  constructor
  · rintro (⟨app, ⟨happ, -⟩, hmem⟩ | ⟨app, ⟨happ, -⟩, hmem⟩)
    · exact ⟨app, happ, hmem⟩
    · exact ⟨app, happ, hmem⟩
  · rintro ⟨app, happ, hmem⟩
    cases hchanged : changedOrNew original app with
    | true => exact .inl ⟨app, ⟨happ, hchanged⟩, hmem⟩
    | false => exact .inr ⟨app, ⟨happ, hchanged⟩, hmem⟩

end Changed

section Served

variable {given : List (List ℤ)} (hserve : Demand.serve (demands portRange original target)
  (unassignedPorts portRange original target) = some given)

theorem mem_own {d : Demand ℤ} (hd : d ∈ demands portRange original target) {p : ℤ}
    (hp : p ∈ d.own) : p ∈ portRange.ports ∧ p ∈ allServicePorts original ∧
      ∃ app ∈ target.transitiveApps, d = demand portRange original app ∧ p ∉ app.servicePorts := by
  obtain ⟨app, happ, rfl⟩ := List.mem_map.mp hd
  unfold demand assignedAndAvailable at hp
  cases hold : original.app app.id with
  | none =>
    rw [hold] at hp
    cases hp
  | some oldApp =>
    rw [hold] at hp
    obtain ⟨hp, hfree⟩ := List.mem_filter.mp hp
    obtain ⟨hrange, hnot⟩ := of_decide_eq_true hfree
    have holdApp := (Group.mem_transitiveApps_of_app hold).1
    exact ⟨hrange, List.mem_flatMap.mpr ⟨oldApp, holdApp, hp⟩, app, (List.mem_filter.mp happ).1, rfl,
      hnot⟩

theorem mem_unassignedPorts {p : ℤ} :
    p ∈ unassignedPorts portRange original target ↔ p ∈ portRange.ports ∧
      p ∉ allServicePorts original ∧ p ∉ allServicePorts target := by
  simp [unassignedPorts]

include hserve

theorem given_mem {p : ℤ} (hp : p ∈ given.flatten) :
    p ∈ portRange.ports ∧ p ≠ AppDefinition.randomPortValue := by
  have hlength := Demand.length_of_serve hserve
  rw [demands, List.forall₂_map_left_iff] at hlength
  rcases Demand.mem_of_serve hserve hp with hreused | hfree
  · obtain ⟨d, hd, hmem⟩ := List.mem_flatMap.mp hreused
    obtain ⟨hrange, -, app, happ, rfl, hnot⟩ := mem_own hd (List.mem_of_mem_take hmem)
    refine ⟨hrange, fun hzero => hnot ?_⟩
    have hpos : 0 < (demand portRange original app).amount := by
      rw [Demand.reused] at hmem
      by_contra hnone
      rw [Nat.eq_zero_of_not_pos hnone, List.take_zero] at hmem
      cases hmem
    rw [hzero]
    exact List.count_pos_iff.mp hpos
  · obtain ⟨hrange, -, hnot⟩ := mem_unassignedPorts.mp hfree
    refine ⟨hrange, fun hzero => hnot ?_⟩
    obtain ⟨ports, hports, hmem⟩ := List.mem_flatten.mp hp
    obtain ⟨app, happ, hcount, -⟩ := exists_app hlength hports
    have hpos := List.length_pos_of_mem hmem
    rw [hcount] at hpos
    rw [hzero]
    exact List.mem_flatMap.mpr ⟨app, (List.mem_filter.mp happ).1, List.count_pos_iff.mp hpos⟩

theorem given_free_iff : (given.flatten.Nodup ∧ ∀ p ∈ given.flatten, p ∉ allServicePorts target) ↔
    ReusesFreePorts portRange original target := by
  have hown : ∀ d ∈ demands portRange original target, ∀ p ∈ d.own,
      p ∉ unassignedPorts portRange original target := by
    intro d hd p hp hfree
    exact (mem_unassignedPorts.mp hfree).2.1 (mem_own hd hp).2.1
  have hnodup : (unassignedPorts portRange original target).Nodup := (nodup_ports portRange).filter _
  rw [Demand.nodup_iff_of_serve hserve hnodup hown, ReusesFreePorts]
  refine and_congr_right fun _ => ⟨fun h p hp => h p ?_, fun h p hp => ?_⟩
  · exact (Demand.perm_of_serve hserve).mem_iff.mpr (List.mem_append_left _ hp)
  · rcases Demand.mem_of_serve hserve hp with hreused | hfree
    · exact h p hreused
    · exact (mem_unassignedPorts.mp hfree).2.2

theorem assigns_iff (hr : target.Rooted)
    (hreplaces : Replaces target result ((changedApps original target).zipWith placed given)) :
    Assigns portRange original target result ↔ ReusesFreePorts portRange original target := by
  have hlength := Demand.length_of_serve hserve
  rw [demands, List.forall₂_map_left_iff] at hlength
  have hids := map_id_placed hlength
  have hperm := allServicePorts_perm hr hlength hreplaces
  have hcount {p : ℤ} (hp : p ∈ given.flatten) : (allServicePorts result).count p = 1 ↔
      given.flatten.count p = 1 ∧ p ∉ allServicePorts target := by
    rw [hperm.count_eq, List.count_append, ← mem_allServicePorts_iff original
      (given_mem hserve hp).2, ← List.count_eq_zero]
    have hpos := List.count_pos_iff.mpr hp
    omega
  rw [← given_free_iff hserve, List.nodup_iff_count_eq_one]
  constructor
  · intro h
    have hone : ∀ p ∈ given.flatten, given.flatten.count p = 1 ∧ p ∉ allServicePorts target := by
      intro p hp
      obtain ⟨ports, hports, hmem⟩ := List.mem_flatten.mp hp
      obtain ⟨app, happ, hzeros, hplaced⟩ := exists_app hlength hports
      obtain ⟨happ, hchanged⟩ := List.mem_filter.mp happ
      obtain ⟨new, hnew, -, -, hfree⟩ := h.assigned app happ hchanged
      rw [show result.app app.id = some (placed app ports) from hreplaces.new _ hplaced] at hnew
      cases hnew
      rw [servicePorts_placed, filled_fill hzeros] at hfree
      exact (hcount hp).mp (hfree p hmem).2
    exact ⟨fun p hp => (hone p hp).1, fun p hp => (hone p hp).2⟩
  · rintro ⟨honce, hnot⟩
    refine ⟨?_, ?_, ?_⟩
    · intro id
      by_cases hid : id ∈ (changedApps original target).map AppDefinition.id
      · obtain ⟨app, happ, rfl⟩ := List.mem_map.mp hid
        obtain ⟨ports, -, -, hplaced⟩ := exists_placed hlength happ
        rw [show result.app app.id = some (placed app ports) from hreplaces.new _ hplaced,
          hr.inPlace.app_eq_some.mpr ⟨(List.mem_filter.mp happ).1, rfl⟩]
        rfl
      · rw [hreplaces.other id (by rwa [hids])]
    · intro app happ hunchanged
      rw [hreplaces.other app.id, hr.inPlace.app_eq_some.mpr ⟨happ, rfl⟩]
      rw [hids, id_mem_changedApps hr happ, hunchanged]
      exact Bool.false_ne_true
    · intro app happ hchanged
      obtain ⟨ports, hports, hzeros, hplaced⟩ :=
        exists_placed hlength (List.mem_filter.mpr ⟨happ, hchanged⟩)
      refine ⟨placed app ports, hreplaces.new _ hplaced, ?_, ?_, ?_⟩
      · rw [servicePorts_placed]
        intro hzero
        rcases List.mem_append.mp ((fill_perm hzeros).mem_iff.mp hzero) with hmem | hmem
        · exact (given_mem hserve (List.mem_flatten_of_mem hports hmem)).2 rfl
        · exact of_decide_eq_true (List.mem_filter.mp hmem).2 rfl
      · rw [servicePorts_placed]
        exact forall₂_fill _ _
      · rw [servicePorts_placed, filled_fill hzeros]
        intro p hp
        have hmem := List.mem_flatten_of_mem hports hp
        exact ⟨(given_mem hserve hmem).1, (hcount hmem).mpr ⟨honce p hmem, hnot p hmem⟩⟩

end Served

/-- The promise is kept exactly if the ports run out, or the ports that apps get once more are
distinct and no app requests them. -/
theorem promise_iff (hr : target.Rooted) :
    Promise portRange original target
        (assignDynamicServicePorts behavior portRange original target) ↔
      (unassignedPorts portRange original target).length <
          Demand.shortage (demands portRange original target) ∨
        ReusesFreePorts portRange original target := by
  have hresult := assignDynamicServicePorts_eq hr behavior portRange original
  have hisSome : (Demand.serve (demands portRange original target)
      (unassignedPorts portRange original target)).isSome ↔ _ ≤ _ := Demand.isSome_serve
  cases hserve : Demand.serve (demands portRange original target)
    (unassignedPorts portRange original target) with
  | none =>
    rw [hserve] at hresult hisSome
    have hshort : ¬Demand.shortage (demands portRange original target) ≤
        (unassignedPorts portRange original target).length := fun hle => by cases hisSome.mpr hle
    rw [hresult]
    refine iff_of_true ?_ (.inl (not_le.mp hshort))
    unfold PortRange.exhausted
    split
    · rintro ⟨given, hgiven⟩
      exact hshort hgiven.shortage_le
    · trivial
  | some given =>
    rw [hserve] at hresult hisSome
    obtain ⟨result, hok, hreplaces⟩ := hresult
    rw [hok, or_iff_right (not_lt.mpr (hisSome.mp rfl))]
    exact assigns_iff hserve hr hreplaces

/-! ## A port that another app requests -/

/-- An app with one service port. -/
def portApp (id : AbsolutePathId) (port : ℤ) : AppDefinition :=
  { plainApp id ∅ with portDefinitions := [⟨port, "tcp", none, ∅⟩] }

def portRoot (apps : List AppDefinition) : RootGroup := plainRoot [plainGroup ⟨["prod"]⟩ apps [] ∅]

/-- The app had port 10 and asks for any port. -/
def oldRoot : RootGroup := portRoot [portApp ⟨["prod", "a"]⟩ 10]

/-- Another app asks for port 10. -/
def newRoot : RootGroup := portRoot [portApp ⟨["prod", "a"]⟩ 0, portApp ⟨["prod", "b"]⟩ 10]

def tenPorts : PortRange := ⟨10, 1, 10, by decide⟩

theorem rooted_newRoot : newRoot.Rooted :=
  (Group.validRoot_plainRoot (by decide) (by decide) (by decide) (by decide)).rooted

theorem promise_newRoot :
    Promise tenPorts oldRoot newRoot (assignDynamicServicePorts .off tenPorts oldRoot newRoot) ↔
      (unassignedPorts tenPorts oldRoot newRoot).length <
          Demand.shortage (demands tenPorts oldRoot newRoot) ∨
        ReusesFreePorts tenPorts oldRoot newRoot :=
  promise_iff rooted_newRoot

/-- Both apps get port 10. -/
theorem not_forall_promise : ¬∀ (behavior : NewGroupEnforceRoleBehavior) (portRange : PortRange)
    (original target : RootGroup), target.Rooted → Promise portRange original target
      (assignDynamicServicePorts behavior portRange original target) := by
  intro h
  have hkept := h .off tenPorts oldRoot newRoot rooted_newRoot
  have hserve : Demand.serve (demands tenPorts oldRoot newRoot)
      (unassignedPorts tenPorts oldRoot newRoot) = some [[], [10]] := by
    decide +kernel
  have hresult := assignDynamicServicePorts_eq rooted_newRoot .off tenPorts oldRoot
  rw [hserve] at hresult
  obtain ⟨result, hok, hreplaces⟩ := hresult
  rw [hok] at hkept
  have hfree := ((assigns_iff hserve rooted_newRoot hreplaces).mp hkept).2 10
  exact absurd hfree (by decide +kernel)

end Marathon.AssignDynamicServiceLogic
