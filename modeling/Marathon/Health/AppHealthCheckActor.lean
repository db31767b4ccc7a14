import Marathon.Health.Health

/-!
# The actor of the health of instances

It keeps the definitions of the health checks of all versions of all apps and the statuses of the
checks of their instances, and publishes an event when the healthiness of an instance changes.
-/

namespace Marathon

open Lib

structure ApplicationKey where
  appId : AbsolutePathId
  version : Timestamp
deriving DecidableEq

structure InstanceKey where
  applicationKey : ApplicationKey
  instanceId : InstanceId
deriving DecidableEq

namespace AppHealthCheckActor

/-- The statuses of the health checks of one instance, `none` where no result is known. -/
abbrev Statuses := FMap HealthCheck (Option Health)

namespace Statuses

def values (statuses : Statuses) : Multiset (Option Health) := statuses.entries.map Sigma.snd

theorem mem_values {statuses : Statuses} {status : Option Health} :
    status ∈ statuses.values ↔ ∃ healthCheck, statuses.lookup healthCheck = some status := by
  simp only [values, Multiset.mem_map, Sigma.exists]
  constructor
  · rintro ⟨healthCheck, status', h, rfl⟩
    exact ⟨healthCheck, Finmap.lookup_eq_some_iff.mpr h⟩
  · rintro ⟨healthCheck, h⟩
    exact ⟨healthCheck, status, Finmap.lookup_eq_some_iff.mp h, rfl⟩

/-- `hcDefinitions.map(x => (x, Option.empty[Health])).toMap`. -/
def unknown (hcDefinitions : Finset HealthCheck) : Statuses where
  entries := hcDefinitions.val.map fun healthCheck => ⟨healthCheck, none⟩
  nodupKeys := by
    apply Multiset.nodup_keys.mp
    rw [Multiset.keys, Multiset.map_map]
    exact (Multiset.map_id' hcDefinitions.val).symm ▸ hcDefinitions.nodup

theorem lookup_unknown (hcDefinitions : Finset HealthCheck) (healthCheck : HealthCheck) :
    (unknown hcDefinitions).lookup healthCheck =
      if healthCheck ∈ hcDefinitions then some none else none := by
  apply Option.ext
  intro status
  rw [Finmap.lookup_eq_some_iff]
  have hentries : (⟨healthCheck, status⟩ : Sigma fun _ : HealthCheck => Option Health) ∈
      (unknown hcDefinitions).entries ↔ healthCheck ∈ hcDefinitions ∧ none = status := by
    simp only [unknown, Multiset.mem_map, Finset.mem_val, Sigma.mk.injEq, heq_eq_eq]
    constructor
    · rintro ⟨_, h, rfl, rfl⟩
      exact ⟨h, rfl⟩
    · rintro ⟨h, rfl⟩
      exact ⟨healthCheck, h, rfl, rfl⟩
  rw [hentries]
  split_ifs with h
  · rw [and_iff_right h, Option.some.injEq]
  · exact iff_of_false (fun hmem => h hmem.1) not_false

def isEmpty (statuses : Statuses) : Bool := statuses.keys = ∅

theorem isEmpty_iff (statuses : Statuses) : statuses.isEmpty = true ↔ statuses = ∅ := by
  rw [isEmpty, decide_eq_true_iff]
  constructor
  · intro h
    apply Finmap.ext_lookup
    intro healthCheck
    rw [Finmap.lookup_empty, Finmap.lookup_eq_none, ← Finmap.mem_keys, h]
    exact Finset.notMem_empty healthCheck
  · rintro rfl
    exact Finmap.keys_empty

theorem erase_empty (healthCheck : HealthCheck) : Finmap.erase healthCheck (∅ : Statuses) = ∅ := by
  apply Finmap.ext_lookup
  intro x
  by_cases hx : x = healthCheck
  · rw [hx, Finmap.lookup_erase, Finmap.lookup_empty]
  · rw [Finmap.lookup_erase_ne hx]

theorem lookup_foldl_erase (results : Statuses) (purged : List HealthCheck) (x : HealthCheck) :
    (purged.foldl (fun results healthCheck => results.erase healthCheck) results).lookup x =
      if x ∈ purged then none else results.lookup x := by
  induction purged generalizing results with
  | nil => rfl
  | cons healthCheck purged ih =>
    rw [List.foldl_cons, ih]
    by_cases hx : x = healthCheck
    · subst hx
      rw [Finmap.lookup_erase, ite_self, if_pos List.mem_cons_self]
    · rw [Finmap.lookup_erase_ne hx]
      simp only [List.mem_cons, hx, false_or]

end Statuses

/-- `isHealthAlive`. -/
def isHealthAlive (health : Option Health) : Bool := health.any Health.alive

/-- The instance healthiness from the statuses: unknown (`none`), healthy or unhealthy. -/
def computeGlobalHealth (instanceHealthResults : Statuses) : Option Bool :=
  if ∀ health ∈ instanceHealthResults.values, isHealthAlive health then some true
  else if none ∈ instanceHealthResults.values then none
  else some false

/-- `AppHealthCheckProxy`. -/
structure Proxy where
  healthChecks : Dict ApplicationKey (Finset HealthCheck)
  healthCheckStates : Dict InstanceKey Statuses

/-- An event on the bus. -/
structure InstanceHealthChanged where
  id : InstanceId
  runSpecVersion : Timestamp
  runSpecId : AbsolutePathId
  healthy : Option Bool
deriving DecidableEq

section Purge

variable {K V : Type} [DecidableEq K] (isEmpty : V → Bool) (remove : V → HealthCheck → V)

/-- One of the health checks that are purged from a container. -/
def purgeHealthCheck (healthChecksContainers : Dict K V) (key : K) (healthCheck : HealthCheck) :
    Dict K V :=
  match healthChecksContainers.lookup key with
  | some hcContainer =>
    let newHcContainer := remove hcContainer healthCheck
    if isEmpty newHcContainer then healthChecksContainers.erase key
    else healthChecksContainers.insert key newHcContainer
  | none => healthChecksContainers

def purgeHealthChecks (healthChecksContainers : Dict K V) (toPurge : List (K × HealthCheck)) :
    Dict K V :=
  toPurge.foldl (fun containers entry => purgeHealthCheck isEmpty remove containers entry.1 entry.2)
    healthChecksContainers

variable {isEmpty remove} {empty : V}

/-- No container is kept without content. -/
def Trimmed (empty : V) (containers : Dict K V) : Prop :=
  ∀ key container, containers.lookup key = some container → container ≠ empty

theorem lookup_purgeHealthCheck_of_ne {containers : Dict K V} {key k : K} (hk : k ≠ key)
    (healthCheck : HealthCheck) :
    (purgeHealthCheck isEmpty remove containers key healthCheck).lookup k =
      containers.lookup k := by
  unfold purgeHealthCheck
  cases hlookup : containers.lookup key with
  | none => rfl
  | some container =>
    dsimp only
    split_ifs
    · exact AList.lookup_erase_ne hk
    · exact AList.lookup_insert_ne hk

theorem lookup_purgeHealthChecks_of_notMem {containers : Dict K V}
    {toPurge : List (K × HealthCheck)} {k : K} (hk : ∀ entry ∈ toPurge, entry.1 ≠ k) :
    (purgeHealthChecks isEmpty remove containers toPurge).lookup k = containers.lookup k := by
  induction toPurge generalizing containers with
  | nil => rfl
  | cons entry toPurge ih =>
    have htail : ∀ entry ∈ toPurge, entry.1 ≠ k :=
      fun entry hentry => hk entry (List.mem_cons_of_mem _ hentry)
    rw [purgeHealthChecks, List.foldl_cons, ← purgeHealthChecks, ih htail,
      lookup_purgeHealthCheck_of_ne (hk entry List.mem_cons_self).symm]

theorem getD_lookup_purgeHealthCheck (hempty : ∀ v, isEmpty v = true ↔ v = empty)
    (hremove : ∀ healthCheck, remove empty healthCheck = empty) (containers : Dict K V)
    (key k : K) (healthCheck : HealthCheck) :
    ((purgeHealthCheck isEmpty remove containers key healthCheck).lookup k).getD empty =
      if k = key then remove ((containers.lookup k).getD empty) healthCheck
      else (containers.lookup k).getD empty := by
  by_cases hk : k = key
  · subst hk
    rw [if_pos rfl]
    unfold purgeHealthCheck
    cases hlookup : containers.lookup k with
    | none => simpa only [hlookup, Option.getD_none] using (hremove healthCheck).symm
    | some container =>
      dsimp only
      split_ifs with h
      · simpa only [AList.lookup_erase, Option.getD_none, Option.getD_some] using
          ((hempty _).mp h).symm
      · rw [AList.lookup_insert, Option.getD_some, Option.getD_some]
  · rw [if_neg hk, lookup_purgeHealthCheck_of_ne hk]

theorem Trimmed.purgeHealthCheck {containers : Dict K V} (h : Trimmed empty containers)
    (hempty : ∀ v, isEmpty v = true ↔ v = empty) (key : K) (healthCheck : HealthCheck) :
    Trimmed empty (purgeHealthCheck isEmpty remove containers key healthCheck) := by
  unfold AppHealthCheckActor.purgeHealthCheck
  split
  · dsimp only
    split_ifs with hnew
    · intro k v hk
      exact h k v (Dict.lookup_erase_eq_some.mp hk).2
    · intro k v hk
      rcases Dict.lookup_insert_eq_some.mp hk with ⟨_, rfl⟩ | ⟨_, hold⟩
      · exact fun heq => hnew ((hempty _).mpr heq)
      · exact h k v hold
  · exact h

theorem Trimmed.purgeHealthChecks {containers : Dict K V} (h : Trimmed empty containers)
    (hempty : ∀ v, isEmpty v = true ↔ v = empty) (toPurge : List (K × HealthCheck)) :
    Trimmed empty (purgeHealthChecks isEmpty remove containers toPurge) := by
  induction toPurge generalizing containers with
  | nil => exact h
  | cons entry toPurge ih => exact ih (h.purgeHealthCheck hempty entry.1 entry.2)

theorem getD_lookup_purgeHealthChecks (hempty : ∀ v, isEmpty v = true ↔ v = empty)
    (hremove : ∀ healthCheck, remove empty healthCheck = empty) (containers : Dict K V)
    (toPurge : List (K × HealthCheck)) (k : K) :
    ((purgeHealthChecks isEmpty remove containers toPurge).lookup k).getD empty =
      ((toPurge.filter fun entry => entry.1 = k).map Prod.snd).foldl remove
        ((containers.lookup k).getD empty) := by
  induction toPurge generalizing containers with
  | nil => rfl
  | cons entry toPurge ih =>
    rw [purgeHealthChecks, List.foldl_cons, ← purgeHealthChecks, ih,
      getD_lookup_purgeHealthCheck hempty hremove, List.filter_cons]
    by_cases hk : k = entry.1
    · rw [if_pos hk, if_pos (decide_eq_true hk.symm), List.map_cons, List.foldl_cons]
    · rw [if_neg hk, if_neg]
      simpa using Ne.symm hk

theorem Trimmed.lookup_eq {containers : Dict K V} [DecidableEq V] (h : Trimmed empty containers)
    (k : K) :
    containers.lookup k =
      if (containers.lookup k).getD empty = empty then none
      else some ((containers.lookup k).getD empty) := by
  cases hlookup : containers.lookup k with
  | none => rw [Option.getD_none, if_pos rfl]
  | some container => rw [Option.getD_some, if_neg (h k container hlookup)]

end Purge

namespace Proxy

def empty : Proxy := ⟨∅, ∅⟩

def addHealthCheck (proxy : Proxy) (applicationKey : ApplicationKey) (healthCheck : HealthCheck) :
    Proxy :=
  { proxy with
    healthChecks := proxy.healthChecks.insert applicationKey
      (insert healthCheck ((proxy.healthChecks.lookup applicationKey).getD ∅)) }

def purgeHealthCheckDefinition (proxy : Proxy) (applicationKey : ApplicationKey)
    (healthCheck : HealthCheck) : Proxy :=
  { proxy with
    healthChecks := purgeHealthChecks (fun container => decide (container = ∅)) Finset.erase
      proxy.healthChecks [(applicationKey, healthCheck)] }

theorem getD_lookup_purgeHealthCheckDefinition (proxy : Proxy) (applicationKey : ApplicationKey)
    (healthCheck : HealthCheck) (key : ApplicationKey) :
    ((proxy.purgeHealthCheckDefinition applicationKey healthCheck).healthChecks.lookup key).getD ∅ =
      if key = applicationKey then ((proxy.healthChecks.lookup key).getD ∅).erase healthCheck
      else (proxy.healthChecks.lookup key).getD ∅ :=
  getD_lookup_purgeHealthCheck (fun _ => decide_eq_true_iff) Finset.erase_empty _ _ _ _

theorem lookup_purgeHealthCheckDefinition_of_ne (proxy : Proxy)
    {applicationKey key : ApplicationKey} (hkey : key ≠ applicationKey)
    (healthCheck : HealthCheck) :
    (proxy.purgeHealthCheckDefinition applicationKey healthCheck).healthChecks.lookup key =
      proxy.healthChecks.lookup key := by
  apply lookup_purgeHealthChecks_of_notMem
  intro entry hentry
  rw [List.mem_singleton.mp hentry]
  exact hkey.symm

/-- The statuses of all instances are looked through, of this app and of any other. -/
def removeHealthCheck (proxy : Proxy) (applicationKey : ApplicationKey)
    (healthCheck : HealthCheck) : Proxy :=
  let proxy := proxy.purgeHealthCheckDefinition applicationKey healthCheck
  { proxy with
    healthCheckStates := proxy.healthCheckStates.retain fun _ value =>
      decide (∃ x ∈ value.keys, x ≠ healthCheck) }

def purgeHealthChecksStatuses (proxy : Proxy) (toPurge : List (InstanceKey × HealthCheck)) :
    Proxy :=
  { proxy with
    healthCheckStates := purgeHealthChecks Statuses.isEmpty (fun results x => results.erase x)
      proxy.healthCheckStates toPurge }

theorem lookup_getD_purgeHealthChecksStatuses (proxy : Proxy)
    (toPurge : List (InstanceKey × HealthCheck)) (instanceKey : InstanceKey)
    (healthCheck : HealthCheck) :
    (((proxy.purgeHealthChecksStatuses toPurge).healthCheckStates.lookup instanceKey).getD
        ∅).lookup healthCheck =
      if (instanceKey, healthCheck) ∈ toPurge then none
      else ((proxy.healthCheckStates.lookup instanceKey).getD ∅).lookup healthCheck := by
  rw [purgeHealthChecksStatuses,
    getD_lookup_purgeHealthChecks Statuses.isEmpty_iff Statuses.erase_empty,
    Statuses.lookup_foldl_erase]
  apply if_congr _ rfl rfl
  simp only [List.mem_map, List.mem_filter, decide_eq_true_eq]
  constructor
  · rintro ⟨⟨key, x⟩, ⟨hmem, rfl⟩, rfl⟩
    exact hmem
  · intro hmem
    exact ⟨_, ⟨hmem, rfl⟩, rfl⟩

/-- The statuses that are kept of an instance, all unknown when there are none. -/
def currentInstanceHealthResults (proxy : Proxy) (hcDefinitions : Finset HealthCheck)
    (instanceKey : InstanceKey) : Statuses :=
  (proxy.healthCheckStates.lookup instanceKey).getD (.unknown hcDefinitions)

/-- `newInstanceHealthResults`: with the new status of a check. -/
def newInstanceHealthResults (proxy : Proxy) (hcDefinitions : Finset HealthCheck)
    (appKey : ApplicationKey) (healthCheck : HealthCheck) (healthState : Health) : Statuses :=
  (proxy.currentInstanceHealthResults hcDefinitions ⟨appKey, healthState.instanceId⟩).insert
    healthCheck (some healthState)

/-- The proxy afterwards and what the notifier is called with. -/
def updateHealthCheckStatus (proxy : Proxy) (appKey : ApplicationKey) (healthCheck : HealthCheck)
    (healthState : Health) : Proxy × List (Option Bool) :=
  match proxy.healthChecks.lookup appKey with
  | some hcDefinitions =>
    if healthCheck ∈ hcDefinitions then
      let instanceKey : InstanceKey := ⟨appKey, healthState.instanceId⟩
      let current := proxy.currentInstanceHealthResults hcDefinitions instanceKey
      let new := proxy.newInstanceHealthResults hcDefinitions appKey healthCheck healthState
      (
        { proxy with healthCheckStates := proxy.healthCheckStates.insert instanceKey new },
        if computeGlobalHealth current ≠ computeGlobalHealth new then [computeGlobalHealth new]
        else [])
    else (proxy, [])
  | none => (proxy, [])

end Proxy

/-- The messages of the actor. -/
inductive Command
  | addHealthCheck (appKey : ApplicationKey) (healthCheck : HealthCheck)
  | removeHealthCheck (appKey : ApplicationKey) (healthCheck : HealthCheck)
  | purgeHealthCheckStatuses (toPurge : List (InstanceKey × HealthCheck))
  | healthCheckStatusChanged (appKey : ApplicationKey) (healthCheck : HealthCheck)
      (healthState : Health)
deriving DecidableEq

/-- The event that `notifyHealthChanged` publishes. -/
def notifyHealthChanged (applicationKey : ApplicationKey) (instanceId : InstanceId)
    (healthiness : Option Bool) : InstanceHealthChanged :=
  ⟨instanceId, applicationKey.version, applicationKey.appId, healthiness⟩

/-- The proxy afterwards and the published events. -/
def receive (proxy : Proxy) : Command → Proxy × List InstanceHealthChanged
  | .addHealthCheck appKey healthCheck => (proxy.addHealthCheck appKey healthCheck, [])
  | .removeHealthCheck appKey healthCheck => (proxy.removeHealthCheck appKey healthCheck, [])
  | .purgeHealthCheckStatuses toPurge => (proxy.purgeHealthChecksStatuses toPurge, [])
  | .healthCheckStatusChanged appKey healthCheck health =>
    let result := proxy.updateHealthCheckStatus appKey healthCheck health
    (result.1, result.2.map (notifyHealthChanged appKey health.instanceId))

end AppHealthCheckActor

end Marathon
