import Marathon.Health.AppHealthCheckActor
import Marathon.Lib.Machine

/-!
# The aggregated health of instances

What the documentation says of the healthiness of an instance, kept next to what the actor keeps:
the checks that are defined, the latest status of each of them, and what was notified last. The
actor follows it as long as its two maps stay in step: it does not look at the definitions again
once it has a status of an instance, and it removes a check from the statuses of all apps.
-/

namespace Marathon.AppHealthCheckActor

open Lib

/-! ## What is documented -/

structure Documented where
  defined : ApplicationKey → Finset HealthCheck
  latest : InstanceKey → HealthCheck → Option Health
  notified : InstanceKey → Option Bool

/-- Unknown if at least one status is unknown, else unhealthy if at least one is failing. -/
def aggregate (defined : Finset HealthCheck) (latest : HealthCheck → Option Health) :
    Option Bool :=
  if ∃ healthCheck ∈ defined, latest healthCheck = none then none
  else if ∃ healthCheck ∈ defined, isHealthAlive (latest healthCheck) = false then some false
  else some true

variable {appKey key : ApplicationKey} {healthCheck : HealthCheck} {instanceKey : InstanceKey}
  {command : Command}

namespace Documented

def empty : Documented := ⟨fun _ => ∅, fun _ _ => none, fun _ => none⟩

def healthiness (documented : Documented) (instanceKey : InstanceKey) : Option Bool :=
  aggregate (documented.defined instanceKey.applicationKey) (documented.latest instanceKey)

/-- The latest status of a defined check. -/
def reported (documented : Documented) (instanceKey : InstanceKey) (healthCheck : HealthCheck)
    (health : Health) : Documented :=
  { documented with
    latest := Function.update documented.latest instanceKey
      (Function.update (documented.latest instanceKey) healthCheck (some health)) }

/-- The documented state afterwards and the events to be published. -/
def receive (documented : Documented) : Command → Documented × List InstanceHealthChanged
  | .addHealthCheck appKey healthCheck =>
    (
      { documented with
        defined := Function.update documented.defined appKey
          (insert healthCheck (documented.defined appKey)) },
      [])
  | .removeHealthCheck appKey healthCheck =>
    (
      { documented with
        defined := Function.update documented.defined appKey
          ((documented.defined appKey).erase healthCheck)
        latest := fun instanceKey x =>
          if instanceKey.applicationKey = appKey ∧ x = healthCheck then none
          else documented.latest instanceKey x },
      [])
  | .purgeHealthCheckStatuses toPurge =>
    (
      { documented with
        latest := fun instanceKey x =>
          if (instanceKey, x) ∈ toPurge then none else documented.latest instanceKey x },
      [])
  | .healthCheckStatusChanged appKey healthCheck health =>
    if healthCheck ∈ documented.defined appKey then
      let instanceKey : InstanceKey := ⟨appKey, health.instanceId⟩
      let documented' := documented.reported instanceKey healthCheck health
      let healthiness := documented'.healthiness instanceKey
      (
        { documented' with
          notified := Function.update documented'.notified instanceKey healthiness },
        if healthiness ≠ documented.notified instanceKey then
          [notifyHealthChanged appKey health.instanceId healthiness]
        else [])
    else (documented, [])

theorem receive_of_mem {documented : Documented}
    (hmem : healthCheck ∈ documented.defined appKey) (health : Health) :
    documented.receive (.healthCheckStatusChanged appKey healthCheck health) =
      let instanceKey : InstanceKey := ⟨appKey, health.instanceId⟩
      let documented' := documented.reported instanceKey healthCheck health
      let healthiness := documented'.healthiness instanceKey
      (
        { documented' with
          notified := Function.update documented'.notified instanceKey healthiness },
        if healthiness ≠ documented.notified instanceKey then
          [notifyHealthChanged appKey health.instanceId healthiness]
        else []) :=
  if_pos hmem

/-- Some status of the instance is known. -/
def Reported (documented : Documented) (instanceKey : InstanceKey) : Prop :=
  ∃ healthCheck, documented.latest instanceKey healthCheck ≠ none

end Documented

/-! ## The actor next to it -/

structure Watched where
  proxy : Proxy
  documented : Documented

def Watched.receive (s : Watched) (command : Command) : Watched :=
  ⟨(AppHealthCheckActor.receive s.proxy command).1, (s.documented.receive command).1⟩

def watched : Machine Watched Command where
  Init s := s = ⟨.empty, .empty⟩
  step s command := some (s.receive command)

/-- The versions of apps that a message is about. -/
def Command.IsAbout : Command → ApplicationKey → Prop
  | .addHealthCheck appKey _, key => key = appKey
  | .removeHealthCheck appKey _, key => key = appKey
  | .purgeHealthCheckStatuses toPurge, key => ∃ entry ∈ toPurge, entry.1.applicationKey = key
  | .healthCheckStatusChanged appKey _ _, key => key = appKey

/-- The definitions and the statuses of the app version are the same in both. -/
def SameFor (key : ApplicationKey) (proxy proxy' : Proxy) : Prop :=
  proxy'.healthChecks.lookup key = proxy.healthChecks.lookup key ∧
    ∀ instanceId, proxy'.healthCheckStates.lookup ⟨key, instanceId⟩ =
      proxy.healthCheckStates.lookup ⟨key, instanceId⟩

/-- The healthiness that the actor uses is the documented one, it publishes what is to be
published, and it leaves the other app versions untouched. -/
structure Follows (s : Watched) (command : Command) : Prop where
  healthiness : ∀ appKey healthCheck health,
    command = .healthCheckStatusChanged appKey healthCheck health →
    healthCheck ∈ s.documented.defined appKey →
      computeGlobalHealth (s.proxy.newInstanceHealthResults (s.documented.defined appKey) appKey
          healthCheck health) =
        (s.documented.receive command).1.healthiness ⟨appKey, health.instanceId⟩
  published : (receive s.proxy command).2 = (s.documented.receive command).2
  untouched : ∀ key, ¬ command.IsAbout key → SameFor key s.proxy (receive s.proxy command).1

/-- The messages after which the statuses that are kept of an instance are those of the defined
checks: no check is added to an app version with statuses; a check that is removed is the only one
of an app version with statuses, and no other app version with statuses has it as its only one;
statuses of an instance are purged all at once; and a first status comes for an instance that was
last notified as unknown, or changes what was last notified. -/
def KeepsInStep (s : Watched) : Command → Prop
  | .addHealthCheck appKey healthCheck =>
    healthCheck ∈ s.documented.defined appKey ∨
      ∀ instanceId, ¬ s.documented.Reported ⟨appKey, instanceId⟩
  | .removeHealthCheck appKey healthCheck =>
    (∀ instanceKey, instanceKey.applicationKey ≠ appKey → s.documented.Reported instanceKey →
      s.documented.defined instanceKey.applicationKey ≠ {healthCheck}) ∧
    (healthCheck ∈ s.documented.defined appKey → s.documented.defined appKey = {healthCheck} ∨
      ∀ instanceId, ¬ s.documented.Reported ⟨appKey, instanceId⟩)
  | .purgeHealthCheckStatuses toPurge => ∀ instanceKey, s.documented.Reported instanceKey →
    (∀ healthCheck ∈ s.documented.defined instanceKey.applicationKey,
      (instanceKey, healthCheck) ∈ toPurge) ∨
    ∀ healthCheck ∈ s.documented.defined instanceKey.applicationKey,
      (instanceKey, healthCheck) ∉ toPurge
  | .healthCheckStatusChanged appKey healthCheck health =>
    healthCheck ∈ s.documented.defined appKey →
    ¬ s.documented.Reported ⟨appKey, health.instanceId⟩ →
      s.documented.notified ⟨appKey, health.instanceId⟩ = none ∨
        s.documented.defined appKey = {healthCheck} ∧
          s.documented.notified ⟨appKey, health.instanceId⟩ = some (!health.alive)

/-! ## The statuses of one instance -/

/-- There is an entry for each defined check, with its latest status. -/
def Reflects (results : Statuses) (defined : Finset HealthCheck)
    (latest : HealthCheck → Option Health) : Prop :=
  ∀ healthCheck, results.lookup healthCheck =
    if healthCheck ∈ defined then some (latest healthCheck) else none

section Reflects

variable {results : Statuses} {defined : Finset HealthCheck}
  {latest : HealthCheck → Option Health}

theorem Reflects.mem_values (h : Reflects results defined latest) {status : Option Health} :
    status ∈ results.values ↔ ∃ healthCheck ∈ defined, latest healthCheck = status := by
  rw [Statuses.mem_values]
  apply exists_congr
  intro healthCheck
  rw [h healthCheck]
  split_ifs with hmem
  · rw [Option.some.injEq, and_iff_right hmem]
  · exact iff_of_false not_false fun hand => hmem hand.1

theorem Reflects.mem_keys (h : Reflects results defined latest) :
    healthCheck ∈ results.keys ↔ healthCheck ∈ defined := by
  rw [Finmap.mem_keys, ← Finmap.lookup_isSome, h healthCheck]
  split_ifs with hmem
  · exact iff_of_true rfl hmem
  · exact iff_of_false Bool.noConfusion hmem

theorem Reflects.computeGlobalHealth_eq (h : Reflects results defined latest) :
    computeGlobalHealth results = aggregate defined latest := by
  have hnone : none ∈ results.values ↔ ∃ healthCheck ∈ defined, latest healthCheck = none :=
    h.mem_values
  have halive : (∀ health ∈ results.values, isHealthAlive health = true) ↔
      ∀ healthCheck ∈ defined, isHealthAlive (latest healthCheck) = true := by
    constructor
    · intro hall healthCheck hmem
      exact hall _ (h.mem_values.mpr ⟨healthCheck, hmem, rfl⟩)
    · intro hall health hmem
      obtain ⟨healthCheck, hdefined, rfl⟩ := h.mem_values.mp hmem
      exact hall healthCheck hdefined
  unfold computeGlobalHealth aggregate
  by_cases hunknown : ∃ healthCheck ∈ defined, latest healthCheck = none
  · have hfails : ¬ ∀ health ∈ results.values, isHealthAlive health = true := by
      intro hall
      have hfalse : isHealthAlive none = true := hall none (hnone.mpr hunknown)
      cases hfalse
    rw [if_neg hfails, if_pos (hnone.mpr hunknown), if_pos hunknown]
  · rw [if_neg hunknown]
    by_cases hfailing : ∃ healthCheck ∈ defined, isHealthAlive (latest healthCheck) = false
    · have hfails : ¬ ∀ health ∈ results.values, isHealthAlive health = true := by
        intro hall
        obtain ⟨healthCheck, hmem, hfalse⟩ := hfailing
        rw [halive.mp hall healthCheck hmem] at hfalse
        cases hfalse
      rw [if_neg hfails, if_neg (fun hmem => hunknown (hnone.mp hmem)), if_pos hfailing]
    · have hall : ∀ healthCheck ∈ defined, isHealthAlive (latest healthCheck) = true := by
        intro healthCheck hmem
        by_contra hne
        exact hfailing ⟨healthCheck, hmem, Bool.not_eq_true _ ▸ hne⟩
      rw [if_pos (halive.mpr hall), if_neg hfailing]

theorem reflects_unknown (hlatest : ∀ healthCheck, latest healthCheck = none) :
    Reflects (.unknown defined) defined latest := by
  intro healthCheck
  rw [Statuses.lookup_unknown, hlatest healthCheck]

theorem Reflects.insert (h : Reflects results defined latest)
    (hmem : healthCheck ∈ defined) (health : Health) :
    Reflects (results.insert healthCheck (some health)) defined
      (Function.update latest healthCheck (some health)) := by
  intro x
  by_cases hx : x = healthCheck
  · subst hx
    rw [Finmap.lookup_insert, if_pos hmem, Function.update_self]
  · rw [Finmap.lookup_insert_of_ne _ hx, Function.update_of_ne hx, h x]

theorem aggregate_eq_none (hmem : healthCheck ∈ defined)
    (hlatest : latest healthCheck = none) : aggregate defined latest = none :=
  if_pos ⟨healthCheck, hmem, hlatest⟩

theorem aggregate_singleton (latest : HealthCheck → Option Health) (healthCheck : HealthCheck)
    (health : Health) :
    aggregate {healthCheck} (Function.update latest healthCheck (some health)) =
      some health.alive := by
  unfold aggregate
  simp only [Finset.mem_singleton, exists_eq_left, Function.update_self, reduceCtorEq, if_false,
    isHealthAlive, Option.any_some]
  cases health.alive <;> rfl

end Reflects

/-! ## The invariant -/

/-- The two maps of the actor hold what is documented. -/
structure InStep (s : Watched) : Prop where
  trimmed : Trimmed ∅ s.proxy.healthChecks
  trimmedStates : Trimmed ∅ s.proxy.healthCheckStates
  defined : ∀ key, (s.proxy.healthChecks.lookup key).getD ∅ = s.documented.defined key
  undefined : ∀ instanceKey, ∀ healthCheck ∉ s.documented.defined instanceKey.applicationKey,
    s.documented.latest instanceKey healthCheck = none
  absent : ∀ instanceKey, s.proxy.healthCheckStates.lookup instanceKey = none →
    ¬ s.documented.Reported instanceKey
  present : ∀ instanceKey results,
    s.proxy.healthCheckStates.lookup instanceKey = some results →
      Reflects results (s.documented.defined instanceKey.applicationKey)
        (s.documented.latest instanceKey) ∧
      s.documented.Reported instanceKey ∧
      s.documented.notified instanceKey = computeGlobalHealth results

theorem inStep_empty : InStep ⟨.empty, .empty⟩ where
  trimmed := fun _ _ h => nomatch h
  trimmedStates := fun _ _ h => nomatch h
  defined _ := rfl
  undefined _ _ _ := rfl
  absent := fun _ _ hreported => hreported.elim fun _ h => h rfl
  present := fun _ _ h => nomatch h

namespace InStep

variable {s : Watched}

theorem exists_mem_defined (h : InStep s) (hreported : s.documented.Reported instanceKey) :
    ∃ healthCheck ∈ s.documented.defined instanceKey.applicationKey,
      s.documented.latest instanceKey healthCheck ≠ none := by
  obtain ⟨healthCheck, hne⟩ := hreported
  refine ⟨healthCheck, ?_, hne⟩
  by_contra hmem
  exact hne (h.undefined instanceKey healthCheck hmem)

theorem lookup_healthChecks (h : InStep s) (hmem : healthCheck ∈ s.documented.defined key) :
    s.proxy.healthChecks.lookup key = some (s.documented.defined key) := by
  rw [h.trimmed.lookup_eq key, h.defined key, if_neg (Finset.ne_empty_of_mem hmem)]

theorem addHealthCheck (h : InStep s) (hok : KeepsInStep s (.addHealthCheck appKey healthCheck)) :
    InStep (s.receive (.addHealthCheck appKey healthCheck)) := by
  -- where a status is known the set of checks is the same as before
  have hkept : ∀ instanceKey, s.documented.Reported instanceKey →
      Function.update s.documented.defined appKey
          (insert healthCheck (s.documented.defined appKey)) instanceKey.applicationKey =
        s.documented.defined instanceKey.applicationKey := by
    rintro ⟨key, instanceId⟩ hreported
    by_cases hkey : key = appKey
    · subst hkey
      rcases hok with hmem | hnone
      · rw [Function.update_self, Finset.insert_eq_of_mem hmem]
      · exact absurd hreported (hnone instanceId)
    · exact Function.update_of_ne hkey _ _
  refine ⟨?_, h.trimmedStates, ?_, ?_, h.absent, ?_⟩
  · intro key container hlookup
    rcases Dict.lookup_insert_eq_some.mp hlookup with ⟨_, rfl⟩ | ⟨_, hold⟩
    · exact Finset.insert_ne_empty _ _
    · exact h.trimmed key container hold
  · intro key
    have hinsert : ((s.proxy.healthChecks.insert appKey
        (insert healthCheck ((s.proxy.healthChecks.lookup appKey).getD ∅))).lookup key).getD ∅ =
        Function.update s.documented.defined appKey
          (insert healthCheck (s.documented.defined appKey)) key := by
      by_cases hkey : key = appKey
      · subst hkey
        rw [AList.lookup_insert, Option.getD_some, Function.update_self, h.defined key]
      · rw [AList.lookup_insert_ne hkey, Function.update_of_ne hkey, h.defined key]
    exact hinsert
  · intro instanceKey x hx
    by_contra hne
    have hdefined := hkept instanceKey ⟨x, hne⟩
    exact hne (h.undefined instanceKey x (hdefined ▸ hx))
  · intro instanceKey results hlookup
    obtain ⟨hreflects, hreported, hnotified⟩ := h.present instanceKey results hlookup
    refine ⟨?_, hreported, hnotified⟩
    intro x
    have hsame := hreflects x
    rwa [← hkept instanceKey hreported] at hsame

/-- An entry is kept when the app version has another check than the one that is removed. -/
theorem lookup_retain (h : InStep s)
    (hother : s.documented.Reported instanceKey →
      ∃ x ∈ s.documented.defined instanceKey.applicationKey, x ≠ healthCheck) :
    (s.proxy.healthCheckStates.retain fun _ value =>
        decide (∃ x ∈ value.keys, x ≠ healthCheck)).lookup instanceKey =
      s.proxy.healthCheckStates.lookup instanceKey := by
  rw [Dict.lookup_retain]
  cases hlookup : s.proxy.healthCheckStates.lookup instanceKey with
  | none => rfl
  | some results =>
    obtain ⟨hreflects, hreported, _⟩ := h.present instanceKey results hlookup
    obtain ⟨x, hx, hne⟩ := hother hreported
    exact Option.filter_some_pos (decide_eq_true ⟨x, hreflects.mem_keys.mpr hx, hne⟩)

theorem exists_ne_of_other (h : InStep s)
    (hok : KeepsInStep s (.removeHealthCheck appKey healthCheck))
    (hkey : instanceKey.applicationKey ≠ appKey) (hreported : s.documented.Reported instanceKey) :
    ∃ x ∈ s.documented.defined instanceKey.applicationKey, x ≠ healthCheck := by
  by_contra hall
  push Not at hall
  obtain ⟨x, hx, _⟩ := h.exists_mem_defined hreported
  have hsingleton : s.documented.defined instanceKey.applicationKey = {healthCheck} :=
    Finset.eq_singleton_iff_nonempty_unique_mem.mpr ⟨⟨x, hx⟩, hall⟩
  exact hok.1 instanceKey hkey hreported hsingleton

theorem removeHealthCheck (h : InStep s)
    (hok : KeepsInStep s (.removeHealthCheck appKey healthCheck)) :
    InStep (s.receive (.removeHealthCheck appKey healthCheck)) := by
  let s' := s.receive (.removeHealthCheck appKey healthCheck)
  have hdefined : ∀ key, s'.documented.defined key =
      if key = appKey then (s.documented.defined appKey).erase healthCheck
      else s.documented.defined key := fun key => Function.update_apply _ _ _ _
  have hlatest : ∀ instanceKey x, s'.documented.latest instanceKey x =
      if instanceKey.applicationKey = appKey ∧ x = healthCheck then none
      else s.documented.latest instanceKey x := fun _ _ => rfl
  have hlookup' : ∀ instanceKey, s'.proxy.healthCheckStates.lookup instanceKey =
      (s.proxy.healthCheckStates.retain fun _ value =>
        decide (∃ x ∈ value.keys, x ≠ healthCheck)).lookup instanceKey := fun _ => rfl
  have hlookup : ∀ instanceKey, s'.proxy.healthCheckStates.lookup instanceKey =
      (s.proxy.healthCheckStates.lookup instanceKey).filter fun value =>
        decide (∃ x ∈ value.keys, x ≠ healthCheck) :=
    fun instanceKey => Dict.lookup_retain _ _ instanceKey
  -- an instance with a status keeps it, or the check was the only one of its app version
  have hcases : ∀ instanceKey, s.documented.Reported instanceKey →
      (s'.documented.defined instanceKey.applicationKey =
          s.documented.defined instanceKey.applicationKey ∧
        ∃ x ∈ s.documented.defined instanceKey.applicationKey, x ≠ healthCheck) ∨
      instanceKey.applicationKey = appKey ∧ s.documented.defined appKey = {healthCheck} := by
    rintro ⟨key, instanceId⟩ hreported
    obtain ⟨x, hx, _⟩ := h.exists_mem_defined hreported
    rw [hdefined]
    by_cases hkey : key = appKey
    · subst hkey
      by_cases hmem : healthCheck ∈ s.documented.defined key
      · exact .inr ⟨rfl, (hok.2 hmem).resolve_right fun hnone => hnone instanceId hreported⟩
      · rw [if_pos rfl]
        exact .inl ⟨Finset.erase_eq_of_notMem hmem, x, hx, fun heq => hmem (heq ▸ hx)⟩
    · rw [if_neg hkey]
      exact .inl ⟨rfl, h.exists_ne_of_other hok hkey hreported⟩
  have hundefined : ∀ instanceKey, ∀ x ∉ s'.documented.defined instanceKey.applicationKey,
      s'.documented.latest instanceKey x = none := by
    intro instanceKey x hx
    rw [hlatest]
    split_ifs with hremoved
    · rfl
    · apply h.undefined instanceKey x
      intro hmem
      rw [hdefined] at hx
      split_ifs at hx with hkey
      · exact hx (Finset.mem_erase.mpr ⟨fun heq => hremoved ⟨hkey, heq⟩, hkey ▸ hmem⟩)
      · exact hx hmem
  have hkept : ∀ instanceKey, ∀ x ∈ s'.documented.defined instanceKey.applicationKey,
      s'.documented.latest instanceKey x = s.documented.latest instanceKey x := by
    intro instanceKey x hx
    rw [hlatest, if_neg]
    rintro ⟨hkey, rfl⟩
    rw [hdefined, if_pos hkey] at hx
    exact Finset.notMem_erase _ _ hx
  have hreportedOf : ∀ instanceKey, s'.documented.Reported instanceKey →
      s.documented.Reported instanceKey := by
    rintro instanceKey ⟨x, hne⟩
    rw [hlatest] at hne
    split_ifs at hne
    · exact absurd rfl hne
    · exact ⟨x, hne⟩
  refine ⟨?_, ?_, ?_, hundefined, ?_, ?_⟩
  · exact h.trimmed.purgeHealthChecks (fun _ => decide_eq_true_iff) _
  · intro instanceKey results hsome
    rw [hlookup, Option.filter_eq_some_iff] at hsome
    exact h.trimmedStates instanceKey results hsome.1
  · intro key
    rw [hdefined, ← h.defined key, ← h.defined appKey]
    have hpurge : (s'.proxy.healthChecks.lookup key).getD ∅ = _ :=
      s.proxy.getD_lookup_purgeHealthCheckDefinition appKey healthCheck key
    rw [hpurge]
    split_ifs with hkey
    · rw [hkey]
    · rfl
  · intro instanceKey hnone hreported
    have hbefore := hreportedOf instanceKey hreported
    cases hresults : s.proxy.healthCheckStates.lookup instanceKey with
    | none => exact h.absent instanceKey hresults hbefore
    | some results =>
      rcases hcases instanceKey hbefore with ⟨_, hother⟩ | ⟨hkey, honly⟩
      · have hretained := h.lookup_retain fun _ : s.documented.Reported instanceKey => hother
        rw [← hlookup'] at hretained
        rw [hretained, hresults] at hnone
        cases hnone
      · obtain ⟨x, hx⟩ := hreported
        apply hx
        apply hundefined
        rw [hdefined, if_pos hkey, honly, Finset.erase_singleton]
        exact Finset.notMem_empty x
  · intro instanceKey results hsome
    rw [hlookup, Option.filter_eq_some_iff, decide_eq_true_iff] at hsome
    obtain ⟨hresults, y, hy, hyne⟩ := hsome
    obtain ⟨hreflects, hreported, hnotified⟩ := h.present instanceKey results hresults
    rcases hcases instanceKey hreported with ⟨hsame, _⟩ | ⟨hkey, honly⟩
    · refine ⟨?_, ?_, hnotified⟩
      · intro x
        rw [hreflects x, hsame]
        split_ifs with hx
        · rw [hkept instanceKey x (hsame ▸ hx)]
        · rfl
      · obtain ⟨x, hx, hne⟩ := h.exists_mem_defined hreported
        exact ⟨x, (hkept instanceKey x (hsame ▸ hx)).symm ▸ hne⟩
    · have hmem := hreflects.mem_keys.mp hy
      rw [hkey, honly, Finset.mem_singleton] at hmem
      exact absurd hmem hyne

theorem purgeHealthCheckStatuses (h : InStep s) {toPurge : List (InstanceKey × HealthCheck)}
    (hok : KeepsInStep s (.purgeHealthCheckStatuses toPurge)) :
    InStep (s.receive (.purgeHealthCheckStatuses toPurge)) := by
  let s' := s.receive (.purgeHealthCheckStatuses toPurge)
  have hlatest : ∀ instanceKey x, s'.documented.latest instanceKey x =
      if (instanceKey, x) ∈ toPurge then none else s.documented.latest instanceKey x :=
    fun _ _ => rfl
  have htrimmed : Trimmed ∅ s'.proxy.healthCheckStates :=
    h.trimmedStates.purgeHealthChecks Statuses.isEmpty_iff _
  have hlookup : ∀ instanceKey x,
      ((s'.proxy.healthCheckStates.lookup instanceKey).getD ∅).lookup x =
        if (instanceKey, x) ∈ toPurge then none
        else ((s.proxy.healthCheckStates.lookup instanceKey).getD ∅).lookup x :=
    s.proxy.lookup_getD_purgeHealthChecksStatuses toPurge
  have hempty : ∀ instanceKey,
      (∀ x, ((s'.proxy.healthCheckStates.lookup instanceKey).getD ∅).lookup x = none) →
        s'.proxy.healthCheckStates.lookup instanceKey = none := by
    intro instanceKey hnone
    rw [htrimmed.lookup_eq, if_pos]
    apply Finmap.ext_lookup
    intro x
    rw [hnone x, Finmap.lookup_empty]
  have hreportedOf : ∀ instanceKey, s'.documented.Reported instanceKey →
      s.documented.Reported instanceKey := by
    rintro instanceKey ⟨x, hne⟩
    rw [hlatest] at hne
    split_ifs at hne
    · exact absurd rfl hne
    · exact ⟨x, hne⟩
  have hundefined : ∀ instanceKey, ∀ x ∉ s.documented.defined instanceKey.applicationKey,
      s'.documented.latest instanceKey x = none := by
    intro instanceKey x hx
    rw [hlatest, h.undefined instanceKey x hx, ite_self]
  -- nothing is left of an instance, or it is as it was
  have hcases : ∀ instanceKey results, s.proxy.healthCheckStates.lookup instanceKey = some results →
      s'.proxy.healthCheckStates.lookup instanceKey = none ∧ ¬ s'.documented.Reported instanceKey ∨
      s'.proxy.healthCheckStates.lookup instanceKey = some results ∧
        s'.documented.latest instanceKey = s.documented.latest instanceKey := by
    intro instanceKey results hresults
    obtain ⟨hreflects, hreported, _⟩ := h.present instanceKey results hresults
    rcases hok instanceKey hreported with hall | hnone
    · left
      constructor
      · apply hempty
        intro x
        rw [hlookup, hresults, Option.getD_some, hreflects x]
        split_ifs with hpurge hx
        · rfl
        · exact absurd (hall x hx) hpurge
        · rfl
      · rintro ⟨x, hne⟩
        rw [hlatest] at hne
        split_ifs at hne with hpurge
        · exact hne rfl
        · exact hne (h.undefined instanceKey x fun hx => hpurge (hall x hx))
    · right
      constructor
      · have hsame : (s'.proxy.healthCheckStates.lookup instanceKey).getD ∅ = results := by
          apply Finmap.ext_lookup
          intro x
          rw [hlookup, hresults, Option.getD_some, hreflects x]
          split_ifs with hpurge hx
          · exact absurd hpurge (hnone x hx)
          all_goals rfl
        rw [htrimmed.lookup_eq, hsame, if_neg (h.trimmedStates instanceKey results hresults)]
      · funext x
        rw [hlatest]
        split_ifs with hpurge
        · exact (h.undefined instanceKey x fun hx => hnone x hx hpurge).symm
        · rfl
  refine ⟨h.trimmed, htrimmed, h.defined, hundefined, ?_, ?_⟩
  · intro instanceKey hnone hreported
    cases hresults : s.proxy.healthCheckStates.lookup instanceKey with
    | none => exact h.absent instanceKey hresults (hreportedOf instanceKey hreported)
    | some results =>
      rcases hcases instanceKey results hresults with ⟨_, hgone⟩ | ⟨hsome, _⟩
      · exact hgone hreported
      · rw [hsome] at hnone
        cases hnone
  · intro instanceKey results hsome
    cases hresults : s.proxy.healthCheckStates.lookup instanceKey with
    | none =>
      rw [hempty instanceKey] at hsome
      · cases hsome
      · intro x
        rw [hlookup, hresults, Option.getD_none, Finmap.lookup_empty, ite_self]
    | some results' =>
      rcases hcases instanceKey results' hresults with ⟨hnone, _⟩ | ⟨hsame, hlatest'⟩
      · rw [hnone] at hsome
        cases hsome
      · obtain rfl : results' = results := Option.some.inj (hsame.symm.trans hsome)
        obtain ⟨hreflects, ⟨x, hx⟩, hnotified⟩ := h.present instanceKey results' hresults
        exact ⟨hlatest'.symm ▸ hreflects, ⟨x, hlatest'.symm ▸ hx⟩, hnotified⟩

theorem reflects_current (h : InStep s) (appKey : ApplicationKey) (instanceId : InstanceId) :
    Reflects
      (s.proxy.currentInstanceHealthResults (s.documented.defined appKey) ⟨appKey, instanceId⟩)
      (s.documented.defined appKey) (s.documented.latest ⟨appKey, instanceId⟩) := by
  unfold Proxy.currentInstanceHealthResults
  cases hresults : s.proxy.healthCheckStates.lookup ⟨appKey, instanceId⟩ with
  | none =>
    apply reflects_unknown
    intro healthCheck
    by_contra hne
    exact h.absent _ hresults ⟨healthCheck, hne⟩
  | some results => exact (h.present _ results hresults).1

theorem reflects_new (h : InStep s)
    (hmem : healthCheck ∈ s.documented.defined appKey) (health : Health) :
    Reflects
      (s.proxy.newInstanceHealthResults (s.documented.defined appKey) appKey healthCheck health)
      (s.documented.defined appKey)
      ((s.documented.reported ⟨appKey, health.instanceId⟩ healthCheck health).latest
        ⟨appKey, health.instanceId⟩) := by
  have hreported : (s.documented.reported ⟨appKey, health.instanceId⟩ healthCheck health).latest
      ⟨appKey, health.instanceId⟩ =
        Function.update (s.documented.latest ⟨appKey, health.instanceId⟩) healthCheck
          (some health) :=
    Function.update_self _ _ _
  rw [hreported]
  exact (h.reflects_current appKey health.instanceId).insert hmem health

theorem computeGlobalHealth_new (h : InStep s) (hmem : healthCheck ∈ s.documented.defined appKey)
    (health : Health) :
    computeGlobalHealth
        (s.proxy.newInstanceHealthResults (s.documented.defined appKey) appKey healthCheck health) =
      (s.documented.reported ⟨appKey, health.instanceId⟩ healthCheck health).healthiness
        ⟨appKey, health.instanceId⟩ :=
  (h.reflects_new hmem health).computeGlobalHealth_eq

theorem updateHealthCheckStatus_of_mem (h : InStep s)
    (hmem : healthCheck ∈ s.documented.defined appKey) (health : Health) :
    s.proxy.updateHealthCheckStatus appKey healthCheck health =
      let current := s.proxy.currentInstanceHealthResults (s.documented.defined appKey)
        ⟨appKey, health.instanceId⟩
      let new := s.proxy.newInstanceHealthResults (s.documented.defined appKey) appKey healthCheck
        health
      (
        { s.proxy with
          healthCheckStates := s.proxy.healthCheckStates.insert ⟨appKey, health.instanceId⟩ new },
        if computeGlobalHealth current ≠ computeGlobalHealth new then [computeGlobalHealth new]
        else []) := by
  unfold Proxy.updateHealthCheckStatus
  rw [h.lookup_healthChecks hmem]
  exact if_pos hmem

theorem updateHealthCheckStatus_of_notMem (h : InStep s)
    (hmem : healthCheck ∉ s.documented.defined appKey) (health : Health) :
    s.proxy.updateHealthCheckStatus appKey healthCheck health = (s.proxy, []) := by
  unfold Proxy.updateHealthCheckStatus
  rw [← h.defined appKey] at hmem
  cases hlookup : s.proxy.healthChecks.lookup appKey with
  | none => rfl
  | some hcDefinitions =>
    rw [hlookup, Option.getD_some] at hmem
    exact if_neg hmem

theorem healthCheckStatusChanged (h : InStep s) (appKey : ApplicationKey)
    (healthCheck : HealthCheck) (health : Health) :
    InStep (s.receive (.healthCheckStatusChanged appKey healthCheck health)) := by
  by_cases hmem : healthCheck ∈ s.documented.defined appKey
  · let key : InstanceKey := ⟨appKey, health.instanceId⟩
    let new := s.proxy.newInstanceHealthResults (s.documented.defined appKey) appKey healthCheck
      health
    let reported := s.documented.reported key healthCheck health
    have hreceive : s.receive (.healthCheckStatusChanged appKey healthCheck health) =
        ⟨{ s.proxy with healthCheckStates := s.proxy.healthCheckStates.insert key new },
          { reported with
            notified := Function.update reported.notified key (reported.healthiness key) }⟩ := by
      unfold Watched.receive AppHealthCheckActor.receive Documented.receive
      dsimp only
      rw [h.updateHealthCheckStatus_of_mem hmem, if_pos hmem]
    rw [hreceive]
    have hreflects : Reflects new (s.documented.defined appKey) (reported.latest key) :=
      h.reflects_new hmem health
    have hother : ∀ instanceKey, instanceKey ≠ key →
        reported.latest instanceKey = s.documented.latest instanceKey :=
      fun instanceKey hkey => Function.update_of_ne hkey _ _
    have hself : reported.latest key =
        Function.update (s.documented.latest key) healthCheck (some health) :=
      Function.update_self _ _ _
    refine ⟨h.trimmed, ?_, h.defined, ?_, ?_, ?_⟩
    · intro instanceKey results hresults
      rcases Dict.lookup_insert_eq_some.mp hresults with ⟨_, rfl⟩ | ⟨_, hold⟩
      · intro hempty
        have hnone := hreflects healthCheck
        rw [if_pos hmem] at hnone
        rw [hempty, Finmap.lookup_empty] at hnone
        cases hnone
      · exact h.trimmedStates instanceKey results hold
    · intro instanceKey x hx
      by_cases hkey : instanceKey = key
      · subst hkey
        have hlatest : reported.latest key x = none := by
          have hne : x ≠ healthCheck := by
            rintro rfl
            exact hx hmem
          rw [hself, Function.update_of_ne hne]
          exact h.undefined key x hx
        exact hlatest
      · have hlatest : reported.latest instanceKey x = none := by
          rw [hother instanceKey hkey, h.undefined instanceKey x hx]
        exact hlatest
    · intro instanceKey hnone
      by_cases hkey : instanceKey = key
      · rw [hkey, AList.lookup_insert] at hnone
        cases hnone
      · rw [AList.lookup_insert_ne hkey] at hnone
        rintro ⟨x, hx⟩
        exact h.absent instanceKey hnone ⟨x, hother instanceKey hkey ▸ hx⟩
    · intro instanceKey results hresults
      rcases Dict.lookup_insert_eq_some.mp hresults with ⟨rfl, rfl⟩ | ⟨hkey, hold⟩
      · have hlatest : reported.latest key healthCheck ≠ none := by
          rw [hself, Function.update_self]
          exact Option.some_ne_none health
        refine ⟨hreflects, ⟨healthCheck, hlatest⟩, ?_⟩
        have hhealthiness : Function.update reported.notified key (reported.healthiness key) key =
            computeGlobalHealth new := by
          rw [Function.update_self]
          exact (h.computeGlobalHealth_new hmem health).symm
        exact hhealthiness
      · obtain ⟨hold', ⟨x, hx⟩, hnotified⟩ := h.present instanceKey results hold
        refine ⟨(hother instanceKey hkey).symm ▸ hold', ⟨x, (hother instanceKey hkey).symm ▸ hx⟩, ?_⟩
        rw [← hnotified]
        exact Function.update_of_ne hkey _ _
  · have hreceive : s.receive (.healthCheckStatusChanged appKey healthCheck health) = s := by
      unfold Watched.receive AppHealthCheckActor.receive Documented.receive
      dsimp only
      rw [h.updateHealthCheckStatus_of_notMem hmem, if_neg hmem]
    rwa [hreceive]

theorem receive (h : InStep s) (hok : KeepsInStep s command) : InStep (s.receive command) := by
  cases command with
  | addHealthCheck appKey healthCheck => exact h.addHealthCheck hok
  | removeHealthCheck appKey healthCheck => exact h.removeHealthCheck hok
  | purgeHealthCheckStatuses toPurge => exact h.purgeHealthCheckStatuses hok
  | healthCheckStatusChanged appKey healthCheck health =>
    exact h.healthCheckStatusChanged appKey healthCheck health

/-! ## What is published -/

theorem notifies_iff (h : InStep s)
    {health : Health} (hmem : healthCheck ∈ s.documented.defined appKey)
    (hok : KeepsInStep s (.healthCheckStatusChanged appKey healthCheck health)) :
    computeGlobalHealth (s.proxy.currentInstanceHealthResults (s.documented.defined appKey)
        ⟨appKey, health.instanceId⟩) ≠
      (s.documented.reported ⟨appKey, health.instanceId⟩ healthCheck health).healthiness
        ⟨appKey, health.instanceId⟩ ↔
    (s.documented.reported ⟨appKey, health.instanceId⟩ healthCheck health).healthiness
        ⟨appKey, health.instanceId⟩ ≠
      s.documented.notified ⟨appKey, health.instanceId⟩ := by
  cases hresults : s.proxy.healthCheckStates.lookup ⟨appKey, health.instanceId⟩ with
  | some results =>
    rw [(h.present _ results hresults).2.2, Proxy.currentInstanceHealthResults, hresults,
      Option.getD_some]
    exact ne_comm
  | none =>
    have hunreported := h.absent _ hresults
    have hunknown : computeGlobalHealth (s.proxy.currentInstanceHealthResults
        (s.documented.defined appKey) ⟨appKey, health.instanceId⟩) = none := by
      rw [(h.reflects_current appKey health.instanceId).computeGlobalHealth_eq]
      apply aggregate_eq_none hmem
      by_contra hne
      exact hunreported ⟨healthCheck, hne⟩
    rw [hunknown]
    rcases hok hmem hunreported with hnone | ⟨honly, hother⟩
    · rw [hnone]
      exact ne_comm
    · have halive : (s.documented.reported ⟨appKey, health.instanceId⟩ healthCheck
          health).healthiness ⟨appKey, health.instanceId⟩ = some health.alive := by
        have hupdate : (s.documented.reported ⟨appKey, health.instanceId⟩ healthCheck
            health).latest ⟨appKey, health.instanceId⟩ = Function.update
              (s.documented.latest ⟨appKey, health.instanceId⟩) healthCheck (some health) :=
          Function.update_self _ _ _
        have hdefined : (s.documented.reported ⟨appKey, health.instanceId⟩ healthCheck
            health).defined appKey = {healthCheck} := honly
        rw [Documented.healthiness, hupdate, hdefined]
        exact aggregate_singleton _ healthCheck health
      rw [halive, hother]
      apply iff_of_true (Option.some_ne_none _).symm
      simp

theorem published (h : InStep s) (hok : KeepsInStep s command) :
    (AppHealthCheckActor.receive s.proxy command).2 = (s.documented.receive command).2 := by
  cases command with
  | addHealthCheck | removeHealthCheck | purgeHealthCheckStatuses => rfl
  | healthCheckStatusChanged appKey healthCheck health =>
    unfold AppHealthCheckActor.receive Documented.receive
    dsimp only
    by_cases hmem : healthCheck ∈ s.documented.defined appKey
    · rw [h.updateHealthCheckStatus_of_mem hmem, if_pos hmem]
      dsimp only
      have hnotifies := h.notifies_iff hmem hok
      rw [h.computeGlobalHealth_new hmem health]
      by_cases hchanged : (s.documented.reported ⟨appKey, health.instanceId⟩ healthCheck
          health).healthiness ⟨appKey, health.instanceId⟩ ≠
            s.documented.notified ⟨appKey, health.instanceId⟩
      · rw [if_pos hchanged, if_pos (hnotifies.mpr hchanged)]
        rfl
      · rw [if_neg hchanged, if_neg fun hne => hchanged (hnotifies.mp hne)]
        rfl
    · rw [h.updateHealthCheckStatus_of_notMem hmem, if_neg hmem]
      rfl

/-- A message about other app versions changes nothing of this one. -/
theorem untouched (h : InStep s) (hok : KeepsInStep s command) (habout : ¬ command.IsAbout key) :
    SameFor key s.proxy (AppHealthCheckActor.receive s.proxy command).1 := by
  cases command with
  | addHealthCheck appKey healthCheck => exact ⟨AList.lookup_insert_ne habout, fun _ => rfl⟩
  | removeHealthCheck appKey healthCheck =>
    refine ⟨?_, fun instanceId => h.lookup_retain (h.exists_ne_of_other hok habout)⟩
    exact s.proxy.lookup_purgeHealthCheckDefinition_of_ne habout healthCheck
  | purgeHealthCheckStatuses toPurge =>
    refine ⟨rfl, fun instanceId => lookup_purgeHealthChecks_of_notMem ?_⟩
    rintro entry hentry hkey
    exact habout ⟨entry, hentry, congrArg InstanceKey.applicationKey hkey⟩
  | healthCheckStatusChanged appKey healthCheck health =>
    unfold AppHealthCheckActor.receive
    dsimp only
    by_cases hmem : healthCheck ∈ s.documented.defined appKey
    · rw [h.updateHealthCheckStatus_of_mem hmem]
      refine ⟨rfl, fun instanceId => AList.lookup_insert_ne ?_⟩
      intro heq
      exact habout (InstanceKey.mk.inj heq).1
    · rw [h.updateHealthCheckStatus_of_notMem hmem]
      exact ⟨rfl, fun _ => rfl⟩

end InStep

/-! ## Runs -/

theorem inStep_of_reachableIf {s : Watched} (h : watched.ReachableIf KeepsInStep s) : InStep s := by
  apply h.invariant
  · rintro s rfl
    exact inStep_empty
  · intro s command s' hinv hok hs
    cases hs
    exact hinv.receive hok

/-- As long as every message keeps the two maps in step, the actor follows the documentation. -/
theorem follows_of_keepsInStep {s : Watched} (h : watched.ReachableIf KeepsInStep s)
    {command : Command} (hok : KeepsInStep s command) : Follows s command := by
  have hinv := inStep_of_reachableIf h
  refine ⟨?_, hinv.published hok, fun key habout => hinv.untouched hok habout⟩
  rintro appKey healthCheck health rfl hmem
  rw [hinv.computeGlobalHealth_new hmem health, Documented.receive_of_mem hmem]
  rfl

/-! Two apps with the same check, and an instance of the first of them that is alive. -/

namespace SharedCheck

def check : HealthCheck := .marathonTcpHealthCheck 300 60 20 3 none (some 80)

def web : ApplicationKey := ⟨⟨["web"]⟩, ⟨1⟩⟩

def shop : ApplicationKey := ⟨⟨["shop"]⟩, ⟨1⟩⟩

def webInstance : InstanceId := ⟨web.appId, .instance, ⟨1⟩⟩

def alive : Health := ⟨webInstance, some ⟨5⟩, some ⟨5⟩, none, none, 0⟩

def watchedAlive : Watched :=
  ((Watched.receive ⟨.empty, .empty⟩ (.addHealthCheck web check)).receive
    (.addHealthCheck shop check)).receive (.healthCheckStatusChanged web check alive)

theorem reachable_watchedAlive : watched.ReachableIf KeepsInStep watchedAlive := by
  have hunreported : ∀ instanceKey, ¬ Documented.empty.Reported instanceKey :=
    fun _ hreported => hreported.elim fun _ hne => hne rfl
  have hfirst : KeepsInStep ⟨.empty, .empty⟩ (.addHealthCheck web check) :=
    .inr fun _ => hunreported _
  have hsecond : KeepsInStep (Watched.receive ⟨.empty, .empty⟩ (.addHealthCheck web check))
      (.addHealthCheck shop check) := .inr fun instanceId => hunreported ⟨shop, instanceId⟩
  have hstatus : KeepsInStep ((Watched.receive ⟨.empty, .empty⟩ (.addHealthCheck web check)).receive
      (.addHealthCheck shop check)) (.healthCheckStatusChanged web check alive) :=
    fun _ _ => .inl rfl
  exact (((Machine.ReachableIf.init rfl).step hfirst rfl).step hsecond rfl).step hstatus rfl

/-- The statuses of the first app are gone when the check of the second one is removed. -/
theorem not_forall_follows : ¬ ∀ s, watched.Reachable s → ∀ command, Follows s command := by
  intro h
  have hfollows := h watchedAlive reachable_watchedAlive.reachable (.removeHealthCheck shop check)
  have habout : web ≠ shop := by decide
  have hsame := (hfollows.untouched web habout).2 webInstance
  have hbefore : (watchedAlive.proxy.healthCheckStates.lookup ⟨web, webInstance⟩).isSome = true := by
    decide +kernel
  have hafter : ((receive watchedAlive.proxy (.removeHealthCheck shop check)).1.healthCheckStates.lookup
      ⟨web, webInstance⟩).isSome = false := by
    decide +kernel
  rw [hsame, hbefore] at hafter
  cases hafter

/-- The instance is not alive any more. -/
theorem follows_failing :
    Follows watchedAlive (.healthCheckStatusChanged web check { alive with lastFailure := some ⟨6⟩ }) := by
  have hok : KeepsInStep watchedAlive
      (.healthCheckStatusChanged web check { alive with lastFailure := some ⟨6⟩ }) := by
    intro _ hunreported
    refine absurd ⟨check, ?_⟩ hunreported
    decide +kernel
  exact follows_of_keepsInStep reachable_watchedAlive hok

end SharedCheck

end Marathon.AppHealthCheckActor
