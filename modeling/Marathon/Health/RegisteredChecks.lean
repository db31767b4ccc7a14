import Marathon.Health.MarathonHealthCheckManager
import Marathon.Instance.LiveTasks
import Marathon.State.RootGroup

/-!
# Registered health checks

Whether a check that is added is in the registry afterwards, with the one actor that is alive for it.
It is not when the status of a running task has no health: this is thrown after the actor of a check
of Mesos is created and announced, and before the registry is updated.
-/

namespace Marathon.MarathonHealthCheckManager

open Lib AppHealthCheckActor

/-! ## What is to hold of the registry -/

section

variable (m : MarathonHealthCheckManager)

/-- The definitions that the actor of the health of apps has been told. -/
def announced (key : ApplicationKey) : Finset HealthCheck :=
  ((m.messages.foldl (fun proxy message => (receive proxy message).1)
    Proxy.empty).healthChecks.lookup key).getD ∅

/-- Every check is registered once at most, with an actor of its own that is alive and announced;
there are no other actors. -/
structure Consistent : Prop where
  once : ∀ id version, ((m.listActive id version).map ActiveHealthCheck.healthCheck).Nodup
  live : ∀ id version, ∀ check ∈ m.listActive id version, check.actor ∈ m.actors
  own : ∀ id version id' version', ∀ check ∈ m.listActive id version,
    ∀ check' ∈ m.listActive id' version', check.actor = check'.actor →
      id = id' ∧ version = version' ∧ check = check'
  used : ∀ ref ∈ m.actors, ∃ id version, ∃ check ∈ m.listActive id version, check.actor = ref
  nodup : m.actors.Nodup
  fresh : ∀ ref ∈ m.actors, ref < m.nextActor
  announced : ∀ id version, ∀ check ∈ m.listActive id version,
    check.healthCheck ∈ m.announced ⟨id, version⟩
  nonempty : ∀ id version checks, (m.checksOf id).lookup version = some checks → checks ≠ []

def Registered (app : AppDefinition) (healthCheck : HealthCheck) : Prop :=
  ∃ check ∈ m.listActive app.id app.version, check.healthCheck = healthCheck

end

/-- The statuses of the running tasks have a health if there are any. -/
def Replayable (instances : List Instance) : Prop :=
  ∀ i ∈ instances, ∀ task ∈ i.tasks, task.isRunning = true → ∀ mesosStatus,
    task.status.mesosStatus = some mesosStatus → mesosStatus.healthy.isSome = true

/-- The check is registered already, or nothing is thrown when the statuses are replayed. -/
def CanAdd (m : MarathonHealthCheckManager) (app : AppDefinition) (instances : List Instance)
    (healthCheck : HealthCheck) : Prop :=
  m.Registered app healthCheck ∨ isMesosHealthCheck healthCheck = false ∨ Replayable instances

/-- Nothing is thrown, and the checks of the app are registered afterwards. -/
structure Registers (outcome : MarathonHealthCheckManager × Option Thrown) (app : AppDefinition)
    (healthChecks : Finset HealthCheck) : Prop where
  returns : outcome.2 = none
  consistent : outcome.1.Consistent
  registered : ∀ healthCheck ∈ healthChecks, outcome.1.Registered app healthCheck

/-- The versions of the apps that are active and known, with the instances of each. -/
def ActiveVersion (known : KnownApps) (instances : List Instance) (apps : List AppDefinition)
    (appVersion : AppDefinition) : Prop :=
  ∃ app ∈ apps, ∃ version ∈ activeAppVersions app
    (instances.filter fun i => i.runSpecId = app.id),
      known.appVersion app.id version = some appVersion

def instancesOf (instances : List Instance) (appVersion : AppDefinition) : List Instance :=
  (instances.filter fun i => i.runSpecId = appVersion.id).filter fun i =>
    i.runSpecVersion = appVersion.version

/-- All checks of a version are registered, or none is and each of them can be added. -/
def CanReconcile (m : MarathonHealthCheckManager) (instances : List Instance)
    (appVersion : AppDefinition) : Prop :=
  (∀ healthCheck ∈ appVersion.healthChecks, m.Registered appVersion healthCheck) ∨
    m.listActive appVersion.id appVersion.version = [] ∧
      ∀ healthCheck ∈ appVersion.healthChecks,
        isMesosHealthCheck healthCheck = false ∨ Replayable instances

structure Reconciles (known : KnownApps) (instances : List Instance) (apps : List AppDefinition)
    (outcome : MarathonHealthCheckManager × List Thrown) : Prop where
  returns : outcome.2 = []
  consistent : outcome.1.Consistent
  registered : ∀ appVersion, ActiveVersion known instances apps appVersion →
    ∀ healthCheck ∈ appVersion.healthChecks, outcome.1.Registered appVersion healthCheck

variable {m : MarathonHealthCheckManager}

/-! ## Announcements -/

theorem announced_add (appKey key : ApplicationKey) (healthCheck : HealthCheck) :
    (m.tell (.addHealthCheck appKey healthCheck)).announced key =
      if key = appKey then insert healthCheck (m.announced key) else m.announced key := by
  rw [announced, tell, List.foldl_append, List.foldl_cons, List.foldl_nil]
  unfold receive Proxy.addHealthCheck
  by_cases hkey : key = appKey
  · rw [if_pos hkey, hkey, AList.lookup_insert]
    rfl
  · rw [if_neg hkey, AList.lookup_insert_ne hkey]
    rfl

theorem announced_remove (appKey key : ApplicationKey) (healthCheck : HealthCheck) :
    (m.tell (.removeHealthCheck appKey healthCheck)).announced key =
      if key = appKey then (m.announced key).erase healthCheck else m.announced key := by
  rw [announced, tell, List.foldl_append, List.foldl_cons, List.foldl_nil]
  exact Proxy.getD_lookup_purgeHealthCheckDefinition _ appKey healthCheck key

/-! ## Replaying -/

theorem replayed_eq_ok_iff (i : Instance) (now : Timestamp) (status : Option Mesos.TaskStatus) :
    (∃ results, replayed i now status = .ok results) ↔
      ∀ mesosStatus, status = some mesosStatus → mesosStatus.healthy.isSome = true := by
  cases status with
  | none => exact iff_of_true ⟨[], rfl⟩ fun _ h => nomatch h
  | some mesosStatus =>
    unfold replayed
    dsimp only
    split_ifs with hhealthy hgood
    · exact iff_of_true ⟨_, rfl⟩ fun _ h => Option.some.inj h ▸ hhealthy
    · exact iff_of_true ⟨_, rfl⟩ fun _ h => Option.some.inj h ▸ hhealthy
    · apply iff_of_false
      · rintro ⟨results, h⟩
        cases h
      · exact fun hall => hhealthy (hall mesosStatus rfl)

theorem replayAll_eq_none_iff (now : Timestamp) (tasks : List (Instance × Task)) :
    (replayAll now tasks).2 = none ↔ ∀ entry ∈ tasks, ∀ mesosStatus,
      entry.2.status.mesosStatus = some mesosStatus → mesosStatus.healthy.isSome = true := by
  induction tasks with
  | nil => exact iff_of_true rfl fun _ h => absurd h List.not_mem_nil
  | cons entry tasks ih =>
    obtain ⟨i, task⟩ := entry
    rw [List.forall_mem_cons, ← ih, ← replayed_eq_ok_iff i now]
    cases hreplayed : replayed i now task.status.mesosStatus with
    | ok results =>
      have hcons : (replayAll now ((i, task) :: tasks)).2 = (replayAll now tasks).2 := by
        rw [replayAll, hreplayed]
      rw [hcons, and_iff_right ⟨results, rfl⟩]
    | error thrown =>
      have hcons : (replayAll now ((i, task) :: tasks)).2 = some thrown := by
        rw [replayAll, hreplayed]
      rw [hcons]
      apply iff_of_false
      · exact fun h => nomatch h
      · rintro ⟨⟨results, h⟩, _⟩
        cases h

theorem replayAll_runningTasks (now : Timestamp) (instances : List Instance) :
    (replayAll now (runningTasks instances)).2 = none ↔ Replayable instances := by
  rw [replayAll_eq_none_iff]
  unfold runningTasks Replayable
  simp only [List.mem_flatMap, List.mem_map, List.mem_filter]
  constructor
  · intro h i hi task htask hrunning
    exact h (i, task) ⟨i, hi, task, ⟨htask, hrunning⟩, rfl⟩
  · rintro h _ ⟨i, hi, task, ⟨htask, hrunning⟩, rfl⟩
    exact h i hi task htask hrunning

/-! ## Looking checks up -/

theorem checksOf_put (app : AppDefinition) (checks : List ActiveHealthCheck) (id : AbsolutePathId) :
    (m.put app checks).checksOf id =
      if id = app.id then (m.checksOf app.id).insert app.version checks else m.checksOf id := by
  unfold checksOf put
  by_cases hid : id = app.id
  · rw [if_pos hid, hid, AList.lookup_insert]
    rfl
  · rw [if_neg hid, AList.lookup_insert_ne hid]

theorem listActive_put (app : AppDefinition) (checks : List ActiveHealthCheck)
    (id : AbsolutePathId) (version : Timestamp) :
    (m.put app checks).listActive id version =
      if id = app.id ∧ version = app.version then checks else m.listActive id version := by
  rw [listActive, checksOf_put]
  by_cases hid : id = app.id
  · by_cases hversion : version = app.version
    · rw [if_pos hid, if_pos ⟨hid, hversion⟩, hversion, AList.lookup_insert]
      rfl
    · rw [if_pos hid, if_neg fun h => hversion h.2, AList.lookup_insert_ne hversion, hid]
      rfl
  · rw [if_neg hid, if_neg fun h => hid h.1]
    rfl

theorem registered_iff_any (app : AppDefinition) (healthCheck : HealthCheck) :
    ((m.listActive app.id app.version).any fun check => check.healthCheck = healthCheck) = true ↔
      m.Registered app healthCheck := by
  rw [List.any_eq_true]
  exact exists_congr fun check => and_congr_right fun _ => decide_eq_true_iff

/-! ## Adding a check -/

variable {app : AppDefinition} {healthCheck x : HealthCheck} {m' : MarathonHealthCheckManager}
  {instances : List Instance} {version : Timestamp} {apps : List AppDefinition}

/-- The new check comes with a new actor, and everything else stays as it is. -/
theorem Consistent.put (h : Consistent m)
    (hnew : ¬ m.Registered app healthCheck) (results : List (ℕ × HealthResult)) :
    Consistent (MarathonHealthCheckManager.put
      { (m.actorOf.2.tell (.addHealthCheck ⟨app.id, app.version⟩ healthCheck)) with
        results := results }
      app (m.listActive app.id app.version ++ [⟨healthCheck, m.nextActor⟩])) := by
  let m' := MarathonHealthCheckManager.put
    { (m.actorOf.2.tell (.addHealthCheck ⟨app.id, app.version⟩ healthCheck)) with
      results := results }
    app (m.listActive app.id app.version ++ [⟨healthCheck, m.nextActor⟩])
  have hmem : ∀ id version check, check ∈ m'.listActive id version ↔
      check ∈ m.listActive id version ∨
        (id = app.id ∧ version = app.version) ∧ check = ⟨healthCheck, m.nextActor⟩ := by
    intro id version check
    rw [listActive_put]
    split_ifs with hkey
    · rw [List.mem_append, List.mem_singleton, hkey.1, hkey.2, and_iff_right ⟨rfl, rfl⟩]
    · rw [or_iff_left fun hand => hkey hand.1]
      rfl
  have hactors : m'.actors = m.nextActor :: m.actors := rfl
  have hold : ∀ id version, ∀ check ∈ m.listActive id version, check.actor ≠ m.nextActor := by
    intro id version check hcheck heq
    exact absurd (h.fresh _ (h.live id version check hcheck)) (heq ▸ lt_irrefl _)
  have hannounced : ∀ key, m'.announced key =
      if key = ⟨app.id, app.version⟩ then insert healthCheck (m.announced key)
      else m.announced key := fun key => by
    rw [← announced_add]
    rfl
  refine ⟨?_, ?_, ?_, ?_, ?_, ?_, ?_, ?_⟩
  · intro id version
    rw [listActive_put]
    split_ifs with hkey
    · rw [List.map_append, List.nodup_append]
      refine ⟨h.once app.id app.version, List.nodup_singleton _, ?_⟩
      rintro _ hx _ hy rfl
      obtain ⟨check, hcheck, heq⟩ := List.mem_map.mp hx
      exact hnew ⟨check, hcheck, heq.trans (List.mem_singleton.mp hy)⟩
    · exact h.once id version
  · intro id version check hcheck
    rw [hactors]
    rcases (hmem id version check).mp hcheck with hcheck | ⟨_, rfl⟩
    · exact List.mem_cons_of_mem _ (h.live id version check hcheck)
    · exact List.mem_cons_self
  · intro id version id' version' check hcheck check' hcheck' hactor
    rcases (hmem id version check).mp hcheck with hc | ⟨hkey, rfl⟩
    · rcases (hmem id' version' check').mp hcheck' with hc' | ⟨_, rfl⟩
      · exact h.own id version id' version' check hc check' hc' hactor
      · exact absurd hactor (hold id version check hc)
    · rcases (hmem id' version' check').mp hcheck' with hc' | ⟨hkey', rfl⟩
      · exact absurd hactor.symm (hold id' version' check' hc')
      · exact ⟨hkey.1.trans hkey'.1.symm, hkey.2.trans hkey'.2.symm, rfl⟩
  · intro ref href
    rw [hactors] at href
    rcases List.mem_cons.mp href with rfl | href
    · exact ⟨app.id, app.version, _, (hmem _ _ _).mpr (.inr ⟨⟨rfl, rfl⟩, rfl⟩), rfl⟩
    · obtain ⟨id, version, check, hcheck, heq⟩ := h.used ref href
      exact ⟨id, version, check, (hmem _ _ _).mpr (.inl hcheck), heq⟩
  · rw [hactors, List.nodup_cons]
    exact ⟨fun hmem => lt_irrefl _ (h.fresh _ hmem), h.nodup⟩
  · intro ref href
    rw [hactors] at href
    have hnext : m'.nextActor = m.nextActor + 1 := rfl
    rw [hnext]
    rcases List.mem_cons.mp href with rfl | href
    · omega
    · have hlt := h.fresh ref href
      omega
  · intro id version check hcheck
    rw [hannounced]
    rcases (hmem id version check).mp hcheck with hcheck | ⟨hkey, rfl⟩
    · have hbefore := h.announced id version check hcheck
      split_ifs
      · exact Finset.mem_insert_of_mem hbefore
      · exact hbefore
    · rw [if_pos (by rw [hkey.1, hkey.2])]
      exact Finset.mem_insert_self _ _
  · intro id version checks hlookup
    rw [checksOf_put] at hlookup
    split_ifs at hlookup with hid
    · rcases Dict.lookup_insert_eq_some.mp hlookup with ⟨_, rfl⟩ | ⟨_, hbefore⟩
      · exact List.append_ne_nil_of_right_ne_nil _ (List.cons_ne_nil _ _)
      · exact h.nonempty app.id version checks hbefore
    · exact h.nonempty id version checks hlookup

theorem replay_eq_none_iff (healthCheck : HealthCheck) (instances : List Instance)
    (now : Timestamp) :
    (if isMesosHealthCheck healthCheck then replayAll now (runningTasks instances)
      else ([], none)).2 = none ↔
        isMesosHealthCheck healthCheck = false ∨ Replayable instances := by
  cases isMesosHealthCheck healthCheck with
  | false => exact iff_of_true rfl (.inl rfl)
  | true =>
    rw [if_pos rfl, replayAll_runningTasks]
    simp

theorem add_spec (h : Consistent m) (app : AppDefinition) (healthCheck : HealthCheck)
    (instances : List Instance) (now : Timestamp) :
    ((m.add app healthCheck instances now).2 = none ↔ CanAdd m app instances healthCheck) ∧
      ((m.add app healthCheck instances now).2 = none →
        (m.add app healthCheck instances now).1.Consistent ∧
        (∀ x, (m.add app healthCheck instances now).1.Registered app x ↔
          m.Registered app x ∨ x = healthCheck) ∧
        ∀ id version, ¬ (id = app.id ∧ version = app.version) →
          (m.add app healthCheck instances now).1.listActive id version =
            m.listActive id version) := by
  unfold add CanAdd
  dsimp only
  by_cases hregistered : m.Registered app healthCheck
  · rw [if_pos ((registered_iff_any app healthCheck).mpr hregistered)]
    refine ⟨iff_of_true rfl (.inl hregistered), fun _ => ⟨h, ?_, fun _ _ _ => rfl⟩⟩
    intro x
    rw [or_iff_left_of_imp]
    rintro rfl
    exact hregistered
  · rw [if_neg fun hany => hregistered ((registered_iff_any app healthCheck).mp hany)]
    rw [or_iff_right hregistered]
    have hreplay := replay_eq_none_iff healthCheck instances now
    generalize (if isMesosHealthCheck healthCheck then replayAll now (runningTasks instances)
      else ([], none)) = replay at hreplay ⊢
    cases hthrown : replay.2 with
    | some thrown =>
      rw [hthrown] at hreplay
      exact ⟨hreplay, fun hnone => nomatch hnone⟩
    | none =>
      rw [hthrown] at hreplay
      refine ⟨hreplay, fun _ => ⟨h.put hregistered _, ?_, ?_⟩⟩
      · intro x
        unfold Registered
        rw [listActive_put, if_pos ⟨rfl, rfl⟩]
        simp only [List.mem_append, List.mem_singleton, or_and_right, exists_or, exists_eq_left]
        exact or_congr_right eq_comm
      · intro id version hkey
        rw [listActive_put, if_neg hkey]
        rfl

/-! ## Adding all checks of an app -/

theorem CanAdd.congr (h : CanAdd m app instances healthCheck)
    (hregistered : ∀ x, m'.Registered app x ↔ m.Registered app x ∨ x = healthCheck) :
    CanAdd m' app instances x ↔ CanAdd m app instances x := by
  unfold CanAdd at h ⊢
  rw [hregistered]
  constructor
  · rintro ((hx | rfl) | hother)
    · exact .inl hx
    · exact h
    · exact .inr hother
  · rintro (hx | hother)
    · exact .inl (.inl hx)
    · exact .inr hother

theorem addChecks_spec (h : Consistent m) (app : AppDefinition) (healthChecks : List HealthCheck)
    (instances : List Instance) (now : Timestamp) :
    ((m.addChecks app instances now healthChecks).2 = none ↔
        ∀ x ∈ healthChecks, CanAdd m app instances x) ∧
      ((m.addChecks app instances now healthChecks).2 = none →
        (m.addChecks app instances now healthChecks).1.Consistent ∧
        (∀ x, (m.addChecks app instances now healthChecks).1.Registered app x ↔
          m.Registered app x ∨ x ∈ healthChecks) ∧
        ∀ id version, ¬ (id = app.id ∧ version = app.version) →
          (m.addChecks app instances now healthChecks).1.listActive id version =
            m.listActive id version) := by
  induction healthChecks generalizing m with
  | nil =>
    refine ⟨iff_of_true rfl fun _ hx => absurd hx List.not_mem_nil, fun _ => ⟨h, ?_, ?_⟩⟩
    · exact fun x => (or_iff_left List.not_mem_nil).symm
    · exact fun _ _ _ => rfl
  | cons healthCheck healthChecks ih =>
    obtain ⟨hreturns, hspec⟩ := add_spec h app healthCheck instances now
    rw [List.forall_mem_cons]
    rcases hadd : m.add app healthCheck instances now with ⟨m', thrown⟩
    rw [hadd] at hreturns hspec
    cases thrown with
    | some thrown =>
      have hcons : m.addChecks app instances now (healthCheck :: healthChecks) =
          (m', some thrown) := by
        rw [addChecks, hadd]
      rw [hcons]
      refine ⟨iff_of_false (fun hnone => nomatch hnone) ?_, fun hnone => nomatch hnone⟩
      exact fun hall => nomatch hreturns.mpr hall.1
    | none =>
      have hcons : m.addChecks app instances now (healthCheck :: healthChecks) =
          m'.addChecks app instances now healthChecks := by
        rw [addChecks, hadd]
      have hcan : CanAdd m app instances healthCheck := hreturns.mp rfl
      obtain ⟨hconsistent, hregistered, hothers⟩ := hspec rfl
      obtain ⟨hreturns', hspec'⟩ := ih hconsistent
      rw [hcons]
      refine ⟨?_, fun hnone => ?_⟩
      · rw [hreturns', and_iff_right hcan]
        exact forall₂_congr fun x _ => hcan.congr hregistered
      · obtain ⟨hconsistent', hregistered', hothers'⟩ := hspec' hnone
        refine ⟨hconsistent', ?_, ?_⟩
        · intro x
          rw [hregistered', hregistered, List.mem_cons, or_assoc]
        · intro id version hkey
          rw [hothers' id version hkey, hothers id version hkey]

variable {orders : HealthCheckOrders} {known : KnownApps}

theorem mem_orders : x ∈ orders.healthChecks app ↔ x ∈ app.healthChecks := by
  rw [← orders.healthChecks_toFinset app, List.mem_toFinset]

theorem registers_add_iff (h : Consistent m) (app : AppDefinition) (healthCheck : HealthCheck)
    (instances : List Instance) (now : Timestamp) :
    Registers (m.add app healthCheck instances now) app {healthCheck} ↔
      CanAdd m app instances healthCheck := by
  obtain ⟨hreturns, hspec⟩ := add_spec h app healthCheck instances now
  constructor
  · exact fun hregisters => hreturns.mp hregisters.returns
  · intro hcan
    obtain ⟨hconsistent, hregistered, _⟩ := hspec (hreturns.mpr hcan)
    refine ⟨hreturns.mpr hcan, hconsistent, fun x hx => ?_⟩
    exact (hregistered x).mpr (.inr (Finset.mem_singleton.mp hx))

theorem registers_addAllFor_iff (h : Consistent m) (app : AppDefinition)
    (instances : List Instance) (now : Timestamp) :
    Registers (addAllFor orders m app instances now) app app.healthChecks ↔
      ∀ healthCheck ∈ app.healthChecks, CanAdd m app instances healthCheck := by
  obtain ⟨hreturns, hspec⟩ := addChecks_spec h app (orders.healthChecks app) instances now
  simp only [mem_orders] at hreturns hspec
  constructor
  · exact fun hregisters => hreturns.mp hregisters.returns
  · intro hcan
    obtain ⟨hconsistent, hregistered, _⟩ := hspec (hreturns.mpr hcan)
    exact ⟨hreturns.mpr hcan, hconsistent, fun x hx => (hregistered x).mpr (.inr hx)⟩

/-! ## Removing a check -/

theorem checksOf_putApp (appId : AbsolutePathId) (checks : Dict Timestamp (List ActiveHealthCheck))
    (id : AbsolutePathId) :
    (m.putApp appId checks).checksOf id = if id = appId then checks else m.checksOf id := by
  unfold checksOf putApp
  by_cases hid : id = appId
  · rw [if_pos hid, hid]
    split_ifs with hempty
    · rw [AList.lookup_erase]
      exact (AList.ext (List.isEmpty_iff.mp hempty)).symm
    · rw [AList.lookup_insert]
      rfl
  · rw [if_neg hid]
    split_ifs
    · rw [AList.lookup_erase_ne hid]
    · rw [AList.lookup_insert_ne hid]

theorem lookup_withVersion (checks : Dict Timestamp (List ActiveHealthCheck))
    (appVersion version : Timestamp) (newChecks : List ActiveHealthCheck) :
    (withVersion checks appVersion newChecks).lookup version =
      if version = appVersion then if newChecks.isEmpty then none else some newChecks
      else checks.lookup version := by
  unfold withVersion
  by_cases hversion : version = appVersion
  · rw [if_pos hversion, hversion]
    split_ifs
    · rw [AList.lookup_erase]
    · rw [AList.lookup_insert]
  · rw [if_neg hversion]
    split_ifs
    · rw [AList.lookup_erase_ne hversion]
    · rw [AList.lookup_insert_ne hversion]

section Remove

variable (m) (appId : AbsolutePathId) (appVersion : Timestamp) (healthCheck : HealthCheck)

theorem checksOf_remove (id : AbsolutePathId) :
    (m.remove appId appVersion healthCheck).checksOf id =
      if id = appId then
        withVersion (m.checksOf appId) appVersion
          ((m.listActive appId appVersion).filter fun check => check.healthCheck ≠ healthCheck)
      else m.checksOf id := by
  unfold remove
  rw [checksOf_putApp]
  rfl

theorem listActive_remove (id : AbsolutePathId) (version : Timestamp) :
    (m.remove appId appVersion healthCheck).listActive id version =
      if id = appId ∧ version = appVersion then
        (m.listActive id version).filter fun check => check.healthCheck ≠ healthCheck
      else m.listActive id version := by
  rw [listActive, checksOf_remove]
  by_cases hid : id = appId
  · rw [if_pos hid, lookup_withVersion]
    by_cases hversion : version = appVersion
    · have hkey : id = appId ∧ version = appVersion := ⟨hid, hversion⟩
      rw [if_pos hversion, if_pos hkey, hid, hversion]
      cases hchecks : (m.listActive appId appVersion).filter fun check =>
        check.healthCheck ≠ healthCheck <;> rfl
    · rw [if_neg hversion, if_neg fun h => hversion h.2, hid]
      rfl
  · rw [if_neg hid, if_neg fun h => hid h.1]
    rfl

end Remove

theorem Consistent.remove (h : Consistent m) (appId : AbsolutePathId) (appVersion : Timestamp)
    (healthCheck : HealthCheck) : Consistent (m.remove appId appVersion healthCheck) := by
  let m' := m.remove appId appVersion healthCheck
  have hactive := listActive_remove m appId appVersion healthCheck
  have hmem : ∀ id version check, check ∈ m'.listActive id version ↔
      check ∈ m.listActive id version ∧
        ¬ ((id = appId ∧ version = appVersion) ∧ check.healthCheck = healthCheck) := by
    intro id version check
    rw [hactive]
    split_ifs with hkey
    · rw [List.mem_filter, decide_eq_true_iff]
      simp only [hkey, and_self, true_and, ne_eq]
    · simp only [hkey, false_and, not_false_iff, and_true]
  have hactors : ∀ ref, ref ∈ m'.actors ↔ ref ∈ m.actors ∧
      ∀ check ∈ m.listActive appId appVersion, check.healthCheck = healthCheck →
        check.actor ≠ ref := by
    intro ref
    have hfilter : m'.actors = m.actors.filter (· ∉ ((m.listActive appId appVersion).filter
      fun check => check.healthCheck = healthCheck).map ActiveHealthCheck.actor) := rfl
    rw [hfilter, List.mem_filter, decide_eq_true_iff]
    simp only [List.mem_map, List.mem_filter, decide_eq_true_eq, not_exists, not_and, and_imp]
  have hannounced : ∀ key, m'.announced key =
      if key = ⟨appId, appVersion⟩ then (m.announced key).erase healthCheck
      else m.announced key := fun key => by
    rw [← announced_remove]
    rfl
  refine ⟨?_, ?_, ?_, ?_, ?_, ?_, ?_, ?_⟩
  · intro id version
    rw [hactive]
    split_ifs
    · exact (h.once id version).sublist (List.filter_sublist.map _)
    · exact h.once id version
  · intro id version check hcheck
    obtain ⟨hbefore, hkept⟩ := (hmem id version check).mp hcheck
    refine (hactors _).mpr ⟨h.live id version check hbefore, ?_⟩
    intro removed hremoved hcheck' hactor
    obtain ⟨rfl, rfl, rfl⟩ := h.own _ _ _ _ removed hremoved check hbefore hactor
    exact hkept ⟨⟨rfl, rfl⟩, hcheck'⟩
  · intro id version id' version' check hcheck check' hcheck' hactor
    exact h.own id version id' version' check ((hmem _ _ _).mp hcheck).1 check'
      ((hmem _ _ _).mp hcheck').1 hactor
  · intro ref href
    obtain ⟨hbefore, hkept⟩ := (hactors ref).mp href
    obtain ⟨id, version, check, hcheck, rfl⟩ := h.used ref hbefore
    refine ⟨id, version, check, (hmem _ _ _).mpr ⟨hcheck, ?_⟩, rfl⟩
    rintro ⟨⟨rfl, rfl⟩, hremoved⟩
    exact hkept check hcheck hremoved rfl
  · exact h.nodup.sublist List.filter_sublist
  · intro ref href
    exact h.fresh ref ((hactors ref).mp href).1
  · intro id version check hcheck
    obtain ⟨hbefore, hkept⟩ := (hmem id version check).mp hcheck
    rw [hannounced]
    split_ifs with hkey
    · obtain ⟨hid, hversion⟩ := ApplicationKey.mk.inj hkey
      refine Finset.mem_erase.mpr ⟨fun heq => hkept ⟨⟨hid, hversion⟩, heq⟩, ?_⟩
      exact h.announced id version check hbefore
    · exact h.announced id version check hbefore
  · intro id version checks hlookup
    rw [checksOf_remove] at hlookup
    split_ifs at hlookup with hid
    · rw [lookup_withVersion] at hlookup
      split_ifs at hlookup with hversion hempty
      · cases hlookup
        exact fun hnil => hempty (List.isEmpty_iff.mpr hnil)
      · exact h.nonempty appId version checks hlookup
    · exact h.nonempty id version checks hlookup

/-! ## Reconciling -/

theorem removeObsolete_spec (h : Consistent m) (app : AppDefinition) (instances : List Instance) :
    (m.removeObsolete app instances).Consistent ∧
      ∀ id version, id ≠ app.id ∨ version ∈ activeAppVersions app instances →
        (m.removeObsolete app instances).listActive id version = m.listActive id version := by
  have hobsolete : ∀ entry ∈ m.obsolete app instances,
      entry.1 ∉ activeAppVersions app instances := by
    intro entry hentry
    unfold obsolete at hentry
    simp only [List.mem_flatMap, List.mem_filter, Bool.and_eq_true, decide_eq_true_eq,
      List.mem_map] at hentry
    obtain ⟨versionChecks, ⟨_, _, hversion⟩, check, _, rfl⟩ := hentry
    exact hversion
  unfold removeObsolete
  generalize m.obsolete app instances = entries at hobsolete
  induction entries generalizing m with
  | nil => exact ⟨h, fun _ _ _ => rfl⟩
  | cons entry entries ih =>
    obtain ⟨hconsistent, hactive⟩ := ih (h.remove app.id entry.1 entry.2)
      fun entry' hentry' => hobsolete entry' (List.mem_cons_of_mem _ hentry')
    refine ⟨hconsistent, fun id version hkey => ?_⟩
    rw [List.foldl_cons, hactive id version hkey, listActive_remove, if_neg]
    rintro ⟨rfl, rfl⟩
    exact hkey.elim (fun hne => hne rfl) (hobsolete entry List.mem_cons_self)

theorem Consistent.mem_keys_iff (h : Consistent m) {id : AbsolutePathId} :
    version ∈ (m.checksOf id).keys.toFinset ↔ m.listActive id version ≠ [] := by
  rw [List.mem_toFinset, ← AList.mem_keys, ← AList.lookup_isSome]
  unfold listActive
  cases hlookup : (m.checksOf id).lookup version with
  | none => exact iff_of_false Bool.false_ne_true (not_not.mpr rfl)
  | some checks => exact iff_of_true rfl (h.nonempty id version checks hlookup)

/-- The known definition of a version can be registered. -/
def CanReconcileVersion (m : MarathonHealthCheckManager) (known : KnownApps)
    (id : AbsolutePathId) (instances : List Instance) (version : Timestamp) : Prop :=
  ∀ appVersion, known.appVersion id version = some appVersion →
    ∀ healthCheck ∈ appVersion.healthChecks,
      CanAdd m appVersion (instances.filter fun i => i.runSpecVersion = version) healthCheck

theorem reconcileVersion_spec (orders : HealthCheckOrders) (known : KnownApps)
    (h : Consistent m) (app : AppDefinition) (instances : List Instance)
    (now : Timestamp) (version : Timestamp) :
    ((reconcileVersion orders known app instances now m version).2 = none ↔
        CanReconcileVersion m known app.id instances version) ∧
      ((reconcileVersion orders known app instances now m version).2 = none →
        (reconcileVersion orders known app instances now m version).1.Consistent ∧
        (∀ appVersion, known.appVersion app.id version = some appVersion →
          ∀ x ∈ appVersion.healthChecks,
            (reconcileVersion orders known app instances now m version).1.Registered
              appVersion x) ∧
        ∀ id v, ¬ (id = app.id ∧ v = version) →
          (reconcileVersion orders known app instances now m version).1.listActive id v =
            m.listActive id v) := by
  unfold reconcileVersion CanReconcileVersion
  cases hknown : known.appVersion app.id version with
  | none =>
    have hnone : ∀ appVersion : AppDefinition, none ≠ some appVersion := fun _ hsome => nomatch hsome
    refine ⟨iff_of_true rfl fun _ hsome => absurd hsome (hnone _), fun _ => ⟨h, ?_, ?_⟩⟩
    · exact fun _ hsome => absurd hsome (hnone _)
    · exact fun _ _ _ => rfl
  | some appVersion =>
    obtain ⟨hid, hversion⟩ := known.isVersion hknown
    obtain ⟨hreturns, hspec⟩ := addChecks_spec h appVersion (orders.healthChecks appVersion)
      (instances.filter fun i => i.runSpecVersion = version) now
    simp only [mem_orders] at hreturns hspec
    simp only [Option.some.injEq, forall_eq']
    refine ⟨hreturns, fun hnone => ?_⟩
    obtain ⟨hconsistent, hregistered, hothers⟩ := hspec hnone
    refine ⟨hconsistent, fun x hx => (hregistered x).mpr (.inr hx), fun id v hkey => ?_⟩
    exact hothers id v (hid.symm ▸ hversion.symm ▸ hkey)

/-- What can be reconciled of a version depends on its own entry only. -/
theorem CanReconcileVersion.congr {id : AbsolutePathId}
    (hactive : m'.listActive id version = m.listActive id version) :
    CanReconcileVersion m' known id instances version ↔
      CanReconcileVersion m known id instances version := by
  unfold CanReconcileVersion CanAdd Registered
  apply forall₂_congr
  intro appVersion hknown
  obtain ⟨hid, hversion⟩ := known.isVersion hknown
  rw [hid, hversion, hactive]

theorem reconcileVersions_spec (orders : HealthCheckOrders) (known : KnownApps)
    (h : Consistent m) (app : AppDefinition) (instances : List Instance)
    (now : Timestamp) {versions : List Timestamp} (hnodup : versions.Nodup) :
    ((reconcileVersions orders known app instances now m versions).2 = [] ↔
        ∀ version ∈ versions, CanReconcileVersion m known app.id instances version) ∧
      ((reconcileVersions orders known app instances now m versions).2 = [] →
        (reconcileVersions orders known app instances now m versions).1.Consistent ∧
        (∀ version ∈ versions, ∀ appVersion, known.appVersion app.id version = some appVersion →
          ∀ x ∈ appVersion.healthChecks,
            (reconcileVersions orders known app instances now m versions).1.Registered
              appVersion x) ∧
        ∀ id v, ¬ (id = app.id ∧ v ∈ versions) →
          (reconcileVersions orders known app instances now m versions).1.listActive id v =
            m.listActive id v) := by
  induction versions generalizing m with
  | nil =>
    refine ⟨iff_of_true rfl fun _ hv => absurd hv List.not_mem_nil, fun _ => ⟨h, ?_, ?_⟩⟩
    · exact fun _ hv => absurd hv List.not_mem_nil
    · exact fun _ _ _ => rfl
  | cons version versions ih =>
    obtain ⟨hnew, hnodup⟩ := List.nodup_cons.mp hnodup
    obtain ⟨hreturns, hspec⟩ := reconcileVersion_spec orders known h app instances now version
    let reconciled := reconcileVersion orders known app instances now m version
    let rest := reconcileVersions orders known app instances now reconciled.1 versions
    have hcons : reconcileVersions orders known app instances now m (version :: versions) =
        (rest.1, reconciled.2.toList ++ rest.2) := rfl
    rw [hcons, List.append_eq_nil_iff, Option.toList_eq_nil_iff, List.forall_mem_cons]
    by_cases hnone : reconciled.2 = none
    · obtain ⟨hconsistent, hregistered, hothers⟩ := hspec hnone
      obtain ⟨hreturns', hspec'⟩ := ih hconsistent hnodup
      have hsame : ∀ v ∈ versions, CanReconcileVersion reconciled.1 known app.id instances v ↔
          CanReconcileVersion m known app.id instances v := by
        intro v hv
        apply CanReconcileVersion.congr
        exact hothers app.id v fun hkey => hnew (hkey.2 ▸ hv)
      refine ⟨and_congr hreturns (hreturns'.trans (forall₂_congr hsame)), fun hnil => ?_⟩
      obtain ⟨hconsistent', hregistered', hothers'⟩ := hspec' hnil.2
      refine ⟨hconsistent', ?_, ?_⟩
      · refine List.forall_mem_cons.mpr ⟨fun appVersion hknown x hx => ?_, hregistered'⟩
        obtain ⟨hid, hversion⟩ := known.isVersion hknown
        obtain ⟨check, hcheck, heq⟩ := hregistered appVersion hknown x hx
        refine ⟨check, ?_, heq⟩
        rw [hid, hversion] at hcheck ⊢
        rwa [hothers' app.id version fun hkey => hnew hkey.2]
      · intro id v hkey
        rw [hothers' id v fun hin => hkey ⟨hin.1, List.mem_cons_of_mem _ hin.2⟩]
        exact hothers id v fun heq => hkey ⟨heq.1, heq.2 ▸ List.mem_cons_self⟩
    · refine ⟨iff_of_false (fun hand => hnone hand.1) ?_, fun hand => absurd hand.1 hnone⟩
      exact fun hand => hnone (hreturns.mpr hand.1)

theorem mem_appVersionsWithoutHealthChecks (h : Consistent m) :
    version ∈ orders.versions (m.appVersionsWithoutHealthChecks app instances) ↔
      version ∈ activeAppVersions app instances ∧ m.listActive app.id version = [] := by
  rw [← List.mem_toFinset, orders.versions_toFinset, appVersionsWithoutHealthChecks,
    Finset.mem_sdiff, h.mem_keys_iff, not_not]

/-- What is reconciled of an app: the active versions without checks in the registry get those of
their known definitions, and the other active versions stay as they are. -/
structure AppReconciled (known : KnownApps) (m m' : MarathonHealthCheckManager)
    (instances : List Instance) (app : AppDefinition) : Prop where
  added : ∀ version ∈ activeAppVersions app instances, m.listActive app.id version = [] →
    ∀ appVersion, known.appVersion app.id version = some appVersion →
      ∀ x ∈ appVersion.healthChecks, m'.Registered appVersion x
  kept : ∀ version ∈ activeAppVersions app instances, m.listActive app.id version ≠ [] →
    m'.listActive app.id version = m.listActive app.id version

theorem AppReconciled.congr {m₁ m₂ m₁' m₂' : MarathonHealthCheckManager}
    (h : AppReconciled known m₁ m₁' instances app)
    (hbefore : ∀ v, m₂.listActive app.id v = m₁.listActive app.id v)
    (hafter : ∀ v, m₂'.listActive app.id v = m₁'.listActive app.id v) :
    AppReconciled known m₂ m₂' instances app := by
  constructor
  · intro version hversion hempty appVersion hknown x hx
    rw [hbefore] at hempty
    obtain ⟨check, hcheck, heq⟩ := h.added version hversion hempty appVersion hknown x hx
    obtain ⟨hid, -⟩ := known.isVersion hknown
    refine ⟨check, ?_, heq⟩
    rw [hid] at hcheck ⊢
    rwa [hafter]
  · intro version hversion hne
    rw [hbefore] at hne
    rw [hafter, hbefore]
    exact h.kept version hversion hne

theorem reconcileApp_spec (orders : HealthCheckOrders) (known : KnownApps) (h : Consistent m)
    (app : AppDefinition) (instances : List Instance) (now : Timestamp) :
    ((reconcileApp orders known instances now m app).2 = [] ↔
        ∀ version ∈ activeAppVersions app instances, m.listActive app.id version = [] →
          CanReconcileVersion m known app.id instances version) ∧
      ((reconcileApp orders known instances now m app).2 = [] →
        (reconcileApp orders known instances now m app).1.Consistent ∧
        AppReconciled known m (reconcileApp orders known instances now m app).1 instances app ∧
        ∀ id v, id ≠ app.id → (reconcileApp orders known instances now m app).1.listActive id v =
          m.listActive id v) := by
  obtain ⟨hconsistent, hactive⟩ := removeObsolete_spec h app instances
  let removed := m.removeObsolete app instances
  let versions := orders.versions (removed.appVersionsWithoutHealthChecks app instances)
  have hmem : ∀ version, version ∈ versions ↔
      version ∈ activeAppVersions app instances ∧ m.listActive app.id version = [] := by
    intro version
    rw [mem_appVersionsWithoutHealthChecks hconsistent]
    apply and_congr_right
    intro hversion
    rw [hactive app.id version (.inr hversion)]
  obtain ⟨hreturns, hspec⟩ := reconcileVersions_spec orders known hconsistent app instances now
    (orders.versions_nodup (removed.appVersionsWithoutHealthChecks app instances))
  have hcan : ∀ version ∈ versions, CanReconcileVersion removed known app.id instances version ↔
      CanReconcileVersion m known app.id instances version := by
    intro version hversion
    apply CanReconcileVersion.congr
    exact hactive app.id version (.inr ((hmem version).mp hversion).1)
  refine ⟨?_, fun hnil => ?_⟩
  · refine hreturns.trans ((forall₂_congr hcan).trans ⟨?_, ?_⟩)
    · exact fun hall version hversion hempty => hall version ((hmem version).mpr ⟨hversion, hempty⟩)
    · exact fun hall version hversion => hall version ((hmem version).mp hversion).1
        ((hmem version).mp hversion).2
  · obtain ⟨hconsistent', hregistered, hothers⟩ := hspec hnil
    refine ⟨hconsistent', ⟨?_, ?_⟩, ?_⟩
    · intro version hversion hempty
      exact hregistered version ((hmem version).mpr ⟨hversion, hempty⟩)
    · intro version hversion hne
      rw [← hactive app.id version (.inr hversion)]
      exact hothers app.id version fun hkey => hne ((hmem version).mp hkey.2).2
    · intro id v hid
      rw [← hactive id v (.inl hid)]
      exact hothers id v fun hkey => hid hkey.1

theorem reconcile_spec (orders : HealthCheckOrders) (known : KnownApps) (h : Consistent m)
    (hdistinct : (apps.map AppDefinition.id).Nodup) (instances : List Instance) (now : Timestamp) :
    ((reconcile orders known instances now m apps).2 = [] ↔
        ∀ app ∈ apps, ∀ version ∈ activeAppVersions app
          (instances.filter fun i => i.runSpecId = app.id), m.listActive app.id version = [] →
            CanReconcileVersion m known app.id
              (instances.filter fun i => i.runSpecId = app.id) version) ∧
      ((reconcile orders known instances now m apps).2 = [] →
        (reconcile orders known instances now m apps).1.Consistent ∧
        (∀ app ∈ apps, AppReconciled known m (reconcile orders known instances now m apps).1
          (instances.filter fun i => i.runSpecId = app.id) app) ∧
        ∀ id v, id ∉ apps.map AppDefinition.id →
          (reconcile orders known instances now m apps).1.listActive id v = m.listActive id v) := by
  induction apps generalizing m with
  | nil =>
    refine ⟨iff_of_true rfl fun _ happ => absurd happ List.not_mem_nil, fun _ => ⟨h, ?_, ?_⟩⟩
    · exact fun _ happ => absurd happ List.not_mem_nil
    · exact fun _ _ _ => rfl
  | cons app apps ih =>
    obtain ⟨hnew, hdistinct⟩ := List.nodup_cons.mp hdistinct
    have hother : ∀ app' ∈ apps, app'.id ≠ app.id :=
      fun app' happ heq => hnew (heq ▸ List.mem_map_of_mem happ)
    obtain ⟨hreturns, hspec⟩ := reconcileApp_spec orders known h app
      (instances.filter fun i => i.runSpecId = app.id) now
    let reconciled := reconcileApp orders known (instances.filter fun i => i.runSpecId = app.id) now
      m app
    let rest := reconcile orders known instances now reconciled.1 apps
    have hcons : reconcile orders known instances now m (app :: apps) =
        (rest.1, reconciled.2 ++ rest.2) := rfl
    rw [hcons, List.append_eq_nil_iff, List.forall_mem_cons]
    by_cases hnil : reconciled.2 = []
    · obtain ⟨hconsistent, happ, hothers⟩ := hspec hnil
      obtain ⟨hreturns', hspec'⟩ := ih hconsistent hdistinct
      have hsame : ∀ app' ∈ apps, ∀ v, reconciled.1.listActive app'.id v =
          m.listActive app'.id v := fun app' happ' v => hothers app'.id v (hother app' happ')
      refine ⟨and_congr hreturns (hreturns'.trans (forall₂_congr fun app' happ' =>
        forall₂_congr fun version _ => ?_)), fun hnils => ?_⟩
      · exact imp_congr (by rw [hsame app' happ']) (CanReconcileVersion.congr (hsame app' happ' _))
      · obtain ⟨hconsistent', happs, hothers'⟩ := hspec' hnils.2
        refine ⟨hconsistent', List.forall_mem_cons.mpr ⟨?_, ?_⟩, ?_⟩
        · exact happ.congr (fun _ => rfl) fun v => hothers' app.id v hnew
        · exact fun app' happ' => (happs app' happ').congr (fun v => (hsame app' happ' v).symm)
            fun _ => rfl
        · intro id v hid
          rw [List.map_cons, List.mem_cons, not_or] at hid
          rw [hothers' id v hid.2]
          exact hothers id v hid.1
    · refine ⟨iff_of_false (fun hand => hnil hand.1) ?_, fun hand => absurd hand.1 hnil⟩
      exact fun hand => hnil (hreturns.mpr hand.1)

theorem canAdd_iff_of_listActive_eq_nil (h : m.listActive app.id app.version = []) :
    CanAdd m app instances healthCheck ↔
      isMesosHealthCheck healthCheck = false ∨ Replayable instances := by
  unfold CanAdd Registered
  rw [h, or_iff_right]
  rintro ⟨check, hcheck, _⟩
  exact List.not_mem_nil hcheck

theorem reconciles_iff (h : Consistent m)
    (hdistinct : (apps.map AppDefinition.id).Nodup) (instances : List Instance) (now : Timestamp) :
    Reconciles known instances apps (reconcile orders known instances now m apps) ↔
      ∀ appVersion, ActiveVersion known instances apps appVersion →
        CanReconcile m (instancesOf instances appVersion) appVersion := by
  obtain ⟨hreturns, hspec⟩ := reconcile_spec orders known h hdistinct instances now
  constructor
  · rintro ⟨hnil, _, hregistered⟩ appVersion hactive
    have hafter := hregistered appVersion hactive
    obtain ⟨app, happ, version, hversion, hknown⟩ := hactive
    obtain ⟨hid, rfl⟩ := known.isVersion hknown
    by_cases hempty : m.listActive app.id appVersion.version = []
    · right
      refine ⟨hid ▸ hempty, fun healthCheck hmem => ?_⟩
      have hcan := hreturns.mp hnil app happ _ hversion hempty appVersion hknown healthCheck hmem
      rw [canAdd_iff_of_listActive_eq_nil (hid ▸ hempty)] at hcan
      unfold instancesOf
      rwa [hid]
    · left
      intro healthCheck hmem
      obtain ⟨check, hcheck, heq⟩ := hafter healthCheck hmem
      refine ⟨check, ?_, heq⟩
      rw [hid] at hcheck ⊢
      rwa [← ((hspec hnil).2.1 app happ).kept _ hversion hempty]
  · intro hall
    have hnil : (reconcile orders known instances now m apps).2 = [] := by
      refine hreturns.mpr fun app happ version hversion _ appVersion hknown healthCheck hmem => ?_
      have hcan := hall appVersion ⟨app, happ, version, hversion, hknown⟩
      obtain ⟨hid, rfl⟩ := known.isVersion hknown
      rcases hcan with hregistered | ⟨_, hcan⟩
      · exact .inl (hregistered healthCheck hmem)
      · right
        have hmesos := hcan healthCheck hmem
        unfold instancesOf at hmesos
        rwa [hid] at hmesos
    obtain ⟨hconsistent, happs, _⟩ := hspec hnil
    refine ⟨hnil, hconsistent, fun appVersion hactive healthCheck hmem => ?_⟩
    have hcan := hall appVersion hactive
    obtain ⟨app, happ, version, hversion, hknown⟩ := hactive
    obtain ⟨hid, rfl⟩ := known.isVersion hknown
    by_cases hempty : m.listActive app.id appVersion.version = []
    · exact (happs app happ).added _ hversion hempty appVersion hknown healthCheck hmem
    · have hregistered := hcan.resolve_right fun hright => hempty (hid ▸ hright.1)
      obtain ⟨check, hcheck, heq⟩ := hregistered healthCheck hmem
      refine ⟨check, ?_, heq⟩
      rw [hid] at hcheck ⊢
      rwa [(happs app happ).kept _ hversion hempty]

/-- Adding a check, all checks of an app, and reconciling. -/
theorem registration_iff (orders : HealthCheckOrders) (known : KnownApps) (h : Consistent m)
    (now : Timestamp) :
    (∀ app healthCheck instances,
      Registers (m.add app healthCheck instances now) app {healthCheck} ↔
        CanAdd m app instances healthCheck) ∧
    (∀ app instances,
      Registers (addAllFor orders m app instances now) app app.healthChecks ↔
        ∀ healthCheck ∈ app.healthChecks, CanAdd m app instances healthCheck) ∧
    ∀ (apps : List AppDefinition) (instances : List Instance),
      (apps.map AppDefinition.id).Nodup →
        (Reconciles known instances apps (reconcile orders known instances now m apps) ↔
          ∀ appVersion, ActiveVersion known instances apps appVersion →
            CanReconcile m (instancesOf instances appVersion) appVersion) :=
  ⟨fun app healthCheck instances => registers_add_iff h app healthCheck instances now,
    fun app instances => registers_addAllFor_iff h app instances now,
    fun _ instances hdistinct => reconciles_iff h hdistinct instances now⟩

end Marathon.MarathonHealthCheckManager

namespace Marathon.MarathonHealthCheckManager.Replayed

open Lib

/-! ## An instance whose status has no health -/

def empty : MarathonHealthCheckManager := ⟨∅, [], 0, [], []⟩

theorem consistent_empty : empty.Consistent where
  once _ _ := List.nodup_nil
  live := fun _ _ _ h => absurd h List.not_mem_nil
  own := fun _ _ _ _ _ h => absurd h List.not_mem_nil
  used := fun _ h => absurd h List.not_mem_nil
  nodup := List.nodup_nil
  fresh := fun _ h => absurd h List.not_mem_nil
  announced := fun _ _ _ h => absurd h List.not_mem_nil
  nonempty := fun _ _ _ h => nomatch h

def check : HealthCheck :=
  .mesosHealthCheck (.mesosCommandHealthCheck 300 60 20 3 15 (.command "true"))

def app : AppDefinition := { plainApp ⟨["web"]⟩ ∅ with healthChecks := {check} }

def instanceId : InstanceId := ⟨⟨["web"]⟩, .instance, ⟨0⟩⟩

def taskId : TaskId := .ofContainer instanceId none

/-- The status as it is before the first result of the check. -/
def unchecked : Mesos.TaskStatus := plainStatus taskId .running

def runningInstance (mesosStatus : Mesos.TaskStatus) : Instance :=
  { Instance.scheduled (.app app) instanceId ⟨0⟩ with
    state := ⟨.running, ⟨0⟩, none, none, .running⟩
    tasksMap := Dict.ofBindings [(taskId,
      ⟨taskId, ⟨0⟩, ⟨⟨0⟩, some ⟨0⟩, some mesosStatus, .running, ⟨"agent", [], []⟩⟩⟩)] }

theorem not_forall_registers :
    ¬ ∀ (m : MarathonHealthCheckManager) (now : Timestamp), m.Consistent →
      ∀ app healthCheck instances,
        Registers (m.add app healthCheck instances now) app {healthCheck} := by
  intro h
  have hreturns :=
    (h empty ⟨5⟩ consistent_empty app check [runningInstance unchecked]).returns
  have hthrown : (empty.add app check [runningInstance unchecked] ⟨5⟩).2 = some .matchError := by
    decide +kernel
  rw [hthrown] at hreturns
  cases hreturns

noncomputable def orders : HealthCheckOrders where
  healthChecks app := app.healthChecks.toList
  versions s := s.toList
  healthChecks_toFinset app := Finset.toList_toFinset app.healthChecks
  versions_toFinset s := Finset.toList_toFinset s
  versions_nodup s := s.nodup_toList

/-- No former version is known. -/
def known : KnownApps where
  appVersion _ _ := none
  isVersion := fun h => nomatch h

theorem registers_checked :
    Registers (empty.add app check [runningInstance { unchecked with healthy := some true }] ⟨5⟩) app
      {check} := by
  have hreplayable : Replayable [runningInstance { unchecked with healthy := some true }] := by
    intro i hi task htask _ mesosStatus hstatus
    obtain rfl := List.mem_singleton.mp hi
    obtain rfl := List.mem_singleton.mp htask
    cases hstatus
    rfl
  exact ((registration_iff orders known consistent_empty ⟨5⟩).1 app check _).mpr
    (.inr (.inr hreplayable))

end Marathon.MarathonHealthCheckManager.Replayed
