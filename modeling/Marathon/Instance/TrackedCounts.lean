import Marathon.Health.Health
import Marathon.Instance.InstanceTracker
import Marathon.State.RootGroup

/-!
# The counts of the tracker

`InstanceTrackerActor` holds the instances of each run spec by themselves. Next to them stand the
counts of their tasks, which every effect adjusts by the instance that goes and the one that comes.
-/

namespace Marathon

open Lib

/-- The version and the life time are left out: no count reads them. -/
structure TaskForStatistics where
  running : Bool
  staging : Bool
  healthy : Bool
  unhealthy : Bool

namespace TaskForStatistics

variable (statuses : Dict InstanceId (List Health))

def taskForStatistics (i : Instance) : TaskForStatistics :=
  let maybeTaskState := i.tasks.head?.bind fun task => task.status.mesosStatus.map (·.state)
  let healths := (statuses.lookup i.instanceId).getD []
  { running := maybeTaskState = some .running
    staging := maybeTaskState.isNone || maybeTaskState = some .staging
    healthy := !healths.isEmpty && healths.all (·.alive)
    unhealthy := healths.any fun health => !health.alive }

def forInstances (instances : List Instance) : List TaskForStatistics :=
  (instances.filter fun i => !i.isScheduled && !i.tasks.isEmpty).map (taskForStatistics statuses)

end TaskForStatistics

@[ext]
structure TaskCounts where
  tasksStaged : ℤ
  tasksRunning : ℤ
  tasksHealthy : ℤ
  tasksUnhealthy : ℤ

namespace TaskCounts

def add (c d : TaskCounts) : TaskCounts :=
  ⟨c.tasksStaged + d.tasksStaged, c.tasksRunning + d.tasksRunning,
    c.tasksHealthy + d.tasksHealthy, c.tasksUnhealthy + d.tasksUnhealthy⟩

def sub (c d : TaskCounts) : TaskCounts :=
  ⟨c.tasksStaged - d.tasksStaged, c.tasksRunning - d.tasksRunning,
    c.tasksHealthy - d.tasksHealthy, c.tasksUnhealthy - d.tasksUnhealthy⟩

def ofStatistics (appTasks : List TaskForStatistics) : TaskCounts where
  tasksStaged := appTasks.countP (·.staging)
  tasksRunning := appTasks.countP (·.running)
  tasksHealthy := appTasks.countP (·.healthy)
  tasksUnhealthy := appTasks.countP (·.unhealthy)

def ofInstances (appInstances : List Instance) (healthStatuses : Dict InstanceId (List Health)) :
    TaskCounts :=
  ofStatistics (TaskForStatistics.forInstances healthStatuses appInstances)

variable {l l' : List Instance} {healthStatuses : Dict InstanceId (List Health)}

theorem ofInstances_perm (h : l.Perm l') :
    ofInstances l healthStatuses = ofInstances l' healthStatuses := by
  have hstatistics := (h.filter fun i => !i.isScheduled && !i.tasks.isEmpty).map
    (TaskForStatistics.taskForStatistics healthStatuses)
  ext <;> exact congrArg Nat.cast (hstatistics.countP_eq _)

theorem ofInstances_append : ofInstances (l ++ l') healthStatuses =
    (ofInstances l healthStatuses).add (ofInstances l' healthStatuses) := by
  ext <;> simp [ofInstances, ofStatistics, TaskForStatistics.forInstances, add]

/-- Some instances give way to others. -/
theorem ofInstances_exchange (rest : List Instance) :
    ((ofInstances (l ++ rest) healthStatuses).add (ofInstances l' healthStatuses)).sub
      (ofInstances l healthStatuses) = ofInstances (l' ++ rest) healthStatuses := by
  rw [ofInstances_append, ofInstances_append]
  ext <;> dsimp only [add, sub] <;> omega

end TaskCounts

/-- The run spec of the instance is the one that its id names. -/
def Instance.NamesSpec (i : Instance) : Prop := i.runSpecId = i.instanceId.runSpecId

def InstanceUpdateEffect.NamesSpec : InstanceUpdateEffect → Prop
  | update i _ _ | expunge i _ => i.NamesSpec
  | noop _ | failure _ => True

/-- What the operation brings along names the run spec of the instance. -/
def InstanceUpdateOperation.NamesSpec : InstanceUpdateOperation → Prop
  | schedule i | revert i => i.NamesSpec
  | provision id _ runSpec .. | rescheduleReserved id runSpec => runSpec.id = id.runSpecId
  | _ => True

namespace Tracking

/-- `InstanceTracker.SpecInstances`. -/
abbrev SpecInstances := Keyed Instance.instanceId

/-- `InstanceTracker.InstancesBySpec`. -/
abbrev SpecsMap := Dict AbsolutePathId SpecInstances

namespace SpecsMap

variable (m : SpecsMap)

/-- `instancesMap(appId)`: the map has a default. -/
def apply (appId : AbsolutePathId) : SpecInstances := (m.lookup appId).getD ∅

def findInstance (instanceId : InstanceId) : Option Instance :=
  (m.lookup instanceId.runSpecId).bind fun runSpec => runSpec.lookup instanceId

def allInstances : List Instance := m.values.flatMap Keyed.values

def updateApp (appId : AbsolutePathId) (update : SpecInstances → SpecInstances) : SpecsMap :=
  let updated := update (apply m appId)
  if updated.values.isEmpty then m.erase appId else m.insert appId updated

/-- The instances that `groupBy` gives one run spec, by their ids. -/
def instancesById (instances : List Instance) (appId : AbsolutePathId) : SpecInstances :=
  (instances.filter (·.runSpecId = appId)).foldl Keyed.insert ∅

def forInstances (instances : List Instance) : SpecsMap :=
  .ofBindings ((instances.map (·.runSpecId)).dedup.map fun appId =>
    (appId, instancesById instances appId))

end SpecsMap

/-- The state of `InstanceTrackerActor` with its two gauges. -/
structure Counting where
  instancesBySpec : SpecsMap
  counts : TaskCounts
  stagedTasksMetric : ℤ
  runningTasksMetric : ℤ

namespace Counting

open SpecsMap

/-- `initializing`, once the instances are loaded. -/
def initializing (initialInstances : SpecsMap) : Counting :=
  let counts := TaskCounts.ofInstances (allInstances initialInstances) ∅
  ⟨initialInstances, counts, counts.tasksStaged, counts.tasksRunning⟩

def updateApp (s : Counting) (appId : AbsolutePathId) (instanceId : InstanceId)
    (newInstance : Option Instance) : Counting :=
  let updatedAppInstances := match newInstance with
    | none => SpecsMap.updateApp s.instancesBySpec appId (·.erase instanceId)
    | some i => SpecsMap.updateApp s.instancesBySpec appId (·.insert i)
  let oldInstance := findInstance s.instancesBySpec instanceId
  let updatedCounts := (s.counts.add (.ofInstances newInstance.toList ∅)).sub
    (.ofInstances oldInstance.toList ∅)
  ⟨updatedAppInstances, updatedCounts, updatedCounts.tasksStaged, updatedCounts.tasksRunning⟩

def repositoryStateUpdated (s : Counting) : InstanceUpdateEffect → Counting
  | .update i _ _ => s.updateApp i.runSpecId i.instanceId (some i)
  | .expunge i _ => s.updateApp i.runSpecId i.instanceId none
  | .noop _ | .failure _ => s

end Counting

/-! ### All run specs in one dictionary -/

/-- The maps of the run specs hold the instances of one dictionary, each under its run spec. -/
structure SpecsMap.Holds (m : SpecsMap) (all : InstancesBySpec) : Prop where
  namesSpec : ∀ i ∈ all.values, i.NamesSpec
  lookup : ∀ appId id, (m.apply appId).lookup id =
    if id.runSpecId = appId then all.lookup id else none

namespace SpecsMap

variable {m : SpecsMap} {all : InstancesBySpec} {i : Instance}

theorem findInstance_eq (m : SpecsMap) (id : InstanceId) :
    findInstance m id = (apply m id.runSpecId).lookup id := by
  rw [findInstance, apply]
  cases m.lookup id.runSpecId <;> rfl

theorem eq_empty_of_isEmpty {s : SpecInstances} (h : s.values.isEmpty) : s = ∅ := by
  have hvalues : s.values = [] := List.isEmpty_iff.mp h
  obtain ⟨dict, keyed⟩ := s
  congr 1
  exact AList.ext (List.map_eq_nil_iff.mp hvalues)

/-- A run spec without instances has no map, and reads as the default. -/
theorem apply_updateApp (m : SpecsMap) (appId appId' : AbsolutePathId)
    (update : SpecInstances → SpecInstances) :
    apply (updateApp m appId update) appId' =
      if appId' = appId then update (apply m appId) else apply m appId' := by
  unfold updateApp
  dsimp only
  split_ifs with hempty hid hid
  · rw [hid, eq_empty_of_isEmpty hempty, apply, AList.lookup_erase]
    rfl
  · rw [apply, AList.lookup_erase_ne hid, apply]
  · rw [hid, apply, AList.lookup_insert]
    rfl
  · rw [apply, AList.lookup_insert_ne hid, apply]

theorem mem_allInstances {m : SpecsMap} : i ∈ allInstances m ↔
    ∃ appId, (apply m appId).lookup i.instanceId = some i := by
  simp only [allInstances, List.mem_flatMap, Dict.mem_values, apply]
  constructor
  · rintro ⟨s, ⟨appId, hs⟩, hi⟩
    refine ⟨appId, ?_⟩
    rw [hs]
    exact Keyed.mem_values.mp hi
  · rintro ⟨appId, hi⟩
    cases hs : m.lookup appId with
    | none =>
      rw [hs] at hi
      cases hi
    | some s =>
      rw [hs] at hi
      exact ⟨s, ⟨appId, hs⟩, Keyed.mem_values.mpr hi⟩

namespace Holds

theorem runSpecId_of_lookup (h : Holds m all) {appId : AbsolutePathId} {id : InstanceId}
    (hi : (apply m appId).lookup id = some i) : i.runSpecId = appId ∧ all.lookup id = some i := by
  rw [h.lookup] at hi
  split_ifs at hi with hid
  have hname : i.NamesSpec := h.namesSpec i (Keyed.mem_values.mpr (Keyed.key_of_lookup hi ▸ hi))
  exact ⟨(hname.trans (congrArg InstanceId.runSpecId (Keyed.key_of_lookup hi))).trans hid, hi⟩

theorem nodup_allInstances (h : Holds m all) : (allInstances m).Nodup := by
  rw [allInstances, List.nodup_flatMap]
  constructor
  · intro s _
    exact s.nodup_map_values.of_map
  · rw [Dict.values, List.pairwise_map]
    have hkeys : m.entries.Pairwise fun e e' => e.1 ≠ e'.1 := List.pairwise_map.mp m.nodupKeys
    refine hkeys.imp_of_mem ?_
    intro e e' he he' hne i hi hi'
    have hplace : ∀ e ∈ m.entries, i ∈ e.2.values → i.runSpecId = e.1 := by
      intro e he hi
      have hlookup : (apply m e.1).lookup i.instanceId = some i := by
        rw [apply, AList.mem_lookup_iff.mpr he]
        exact Keyed.mem_values.mp hi
      exact (h.runSpecId_of_lookup hlookup).1
    exact hne ((hplace e he hi).symm.trans (hplace e' he' hi'))

/-- No instance is held twice, and none is missing. -/
theorem perm (h : Holds m all) : (allInstances m).Perm all.values := by
  rw [List.perm_ext_iff_of_nodup h.nodup_allInstances all.nodup_map_values.of_map]
  intro i
  rw [mem_allInstances, Keyed.mem_values]
  constructor
  · rintro ⟨appId, hi⟩
    exact (h.runSpecId_of_lookup hi).2
  · intro hi
    refine ⟨i.instanceId.runSpecId, ?_⟩
    rw [h.lookup, if_pos rfl, hi]

/-- What happens to one instance happens in the map of its run spec. -/
theorem lookup_updateApp (h : Holds m all) (hi : i.NamesSpec) {all' : InstancesBySpec}
    {update : SpecInstances → SpecInstances} {new : Option Instance}
    (hupdate : ∀ s id, (update s).lookup id = if id = i.instanceId then new else s.lookup id)
    (hall : ∀ id, all'.lookup id = if id = i.instanceId then new else all.lookup id)
    (appId : AbsolutePathId) (id : InstanceId) :
    (apply (updateApp m i.runSpecId update) appId).lookup id =
      if id.runSpecId = appId then all'.lookup id else none := by
  rw [apply_updateApp, hall]
  by_cases hid : id = i.instanceId
  · have hspec : id.runSpecId = i.runSpecId := hid ▸ hi.symm
    rw [if_pos hid, hspec]
    by_cases happ : appId = i.runSpecId
    · rw [if_pos happ, if_pos happ.symm, hupdate, if_pos hid]
    · rw [if_neg happ, if_neg (Ne.symm happ), h.lookup, hspec, if_neg (Ne.symm happ)]
  · rw [if_neg hid, ← h.lookup]
    split_ifs with happ
    · rw [hupdate, if_neg hid, happ]
    · rfl

theorem insert (h : Holds m all) (hi : i.NamesSpec) :
    Holds (updateApp m i.runSpecId (·.insert i)) (all.insert i) where
  namesSpec j hj := by
    rw [Keyed.values_insert, List.mem_cons] at hj
    obtain rfl | hj := hj
    · exact hi
    · exact h.namesSpec j (Keyed.mem_values_of_erase hj)
  lookup := h.lookup_updateApp hi (fun s => s.lookup_insert i) (all.lookup_insert i)

theorem erase (h : Holds m all) (hi : i.NamesSpec) :
    Holds (updateApp m i.runSpecId (·.erase i.instanceId)) (all.erase i.instanceId) where
  namesSpec j hj := h.namesSpec j (Keyed.mem_values_of_erase hj)
  lookup := h.lookup_updateApp hi (fun s => s.lookup_erase i.instanceId) (all.lookup_erase _)

end Holds

theorem apply_forInstances (l : List Instance) (appId : AbsolutePathId) :
    apply (forInstances l) appId = instancesById l appId := by
  obtain ⟨hmem, hsome⟩ := Dict.lookup_ofBindings_spec
    ((l.map (·.runSpecId)).dedup.map fun appId => (appId, instancesById l appId)) appId
  rw [apply, forInstances]
  by_cases happ : appId ∈ l.map (·.runSpecId)
  · obtain ⟨s, hs⟩ := hsome _ (List.mem_map_of_mem (List.mem_dedup.mpr happ))
    obtain ⟨appId', -, heq⟩ := List.mem_map.mp (hmem s hs)
    cases heq
    rw [hs]
    rfl
  · have hnone : ∀ s, (forInstances l).lookup appId ≠ some s := by
      intro s hs
      obtain ⟨appId', hin, heq⟩ := List.mem_map.mp (hmem s hs)
      exact happ ((Prod.mk.inj heq).1 ▸ List.mem_dedup.mp hin)
    have hfilter : l.filter (·.runSpecId = appId) = [] := by
      rw [List.filter_eq_nil_iff]
      intro i hi happ'
      exact happ (List.mem_map.mpr ⟨i, hi, of_decide_eq_true happ'⟩)
    rw [← forInstances, Option.eq_none_iff_forall_ne_some.mpr hnone, instancesById, hfilter]
    rfl

theorem instancesById_append (l : List Instance) (i : Instance) (appId : AbsolutePathId) :
    instancesById (l ++ [i]) appId =
      if appId = i.runSpecId then (instancesById l i.runSpecId).insert i
      else instancesById l appId := by
  unfold instancesById
  rw [List.filter_append, List.foldl_append]
  split_ifs with happ
  · simp [happ]
  · simp [Ne.symm happ]

theorem holds_forInstances {l : List Instance} (h : ∀ i ∈ l, i.NamesSpec) :
    Holds (forInstances l) (l.foldl Keyed.insert ∅) := by
  induction l using List.reverseRecOn with
  | nil =>
    constructor
    · exact fun i hi => absurd hi List.not_mem_nil
    · intro appId id
      rw [apply_forInstances]
      split_ifs <;> rfl
  | append_singleton l i ih =>
    rw [List.forall_mem_append, List.forall_mem_singleton] at h
    have hinsert := (ih h.1).insert h.2
    rw [List.foldl_append]
    refine ⟨hinsert.namesSpec, fun appId id => ?_⟩
    refine Eq.trans ?_ (hinsert.lookup appId id)
    rw [apply_updateApp, apply_forInstances, apply_forInstances, apply_forInstances,
      instancesById_append]

end SpecsMap

namespace Counting

open SpecsMap

variable {s : Counting} {all : InstancesBySpec}

/-- The counts are those of the instances that are held. -/
structure Consistent (s : Counting) (all : InstancesBySpec) : Prop where
  holds : Holds s.instancesBySpec all
  counts : s.counts = .ofInstances all.values ∅
  stagedTasksMetric : s.stagedTasksMetric = s.counts.tasksStaged
  runningTasksMetric : s.runningTasksMetric = s.counts.tasksRunning

theorem perm_toList_lookup (all : InstancesBySpec) (id : InstanceId) :
    all.values.Perm ((all.lookup id).toList ++ (all.erase id).values) := by
  cases hid : all.lookup id with
  | none => rw [Keyed.erase_of_none hid]; rfl
  | some i => exact Keyed.values_perm_cons_erase hid

theorem consistent_updateApp (h : s.Consistent all) {i : Instance}
    (newInstance : Option Instance) (all' : InstancesBySpec)
    (hvalues : all'.values = newInstance.toList ++ (all.erase i.instanceId).values)
    (hholds : Holds (s.updateApp i.runSpecId i.instanceId newInstance).instancesBySpec all') :
    (s.updateApp i.runSpecId i.instanceId newInstance).Consistent all' where
  holds := hholds
  counts := by
    show (s.counts.add _).sub _ = _
    rw [findInstance_eq, h.holds.lookup, if_pos rfl, h.counts, hvalues,
      TaskCounts.ofInstances_perm (perm_toList_lookup all i.instanceId),
      TaskCounts.ofInstances_exchange]
  stagedTasksMetric := rfl
  runningTasksMetric := rfl

theorem consistent_repositoryStateUpdated (h : s.Consistent all) {effect : InstanceUpdateEffect}
    (heffect : effect.NamesSpec) :
    (s.repositoryStateUpdated effect).Consistent (all.update effect) := by
  cases effect with
  | update i => exact consistent_updateApp h (some i) (all.insert i) rfl (h.holds.insert heffect)
  | expunge i => exact consistent_updateApp h none (all.erase i.instanceId) rfl (h.holds.erase heffect)
  | noop | failure => exact h

theorem consistent_initializing {l : List Instance} (hl : ∀ i ∈ l, i.NamesSpec) :
    (initializing (forInstances l)).Consistent (l.foldl Keyed.insert ∅) where
  holds := holds_forInstances hl
  counts := TaskCounts.ofInstances_perm (holds_forInstances hl).perm
  stagedTasksMetric := rfl
  runningTasksMetric := rfl

theorem consistent_run (effects : List InstanceUpdateEffect)
    (heffects : ∀ effect ∈ effects, effect.NamesSpec) (h : s.Consistent all) :
    (effects.foldl repositoryStateUpdated s).Consistent
      (effects.foldl InstancesBySpec.update all) := by
  induction effects generalizing s all with
  | nil => exact h
  | cons effect effects ih =>
    rw [List.forall_mem_cons] at heffects
    exact ih heffects.2 (consistent_repositoryStateUpdated h heffects.1)

/-- The counts and the gauges are those of all instances that the tracker holds. It holds the
instances of the dictionary, each of them once, under its id and its run spec. -/
structure Recomputed (s : Counting) (all : InstancesBySpec) : Prop where
  counts : s.counts = .ofInstances (allInstances s.instancesBySpec) ∅
  stagedTasksMetric : s.stagedTasksMetric = s.counts.tasksStaged
  runningTasksMetric : s.runningTasksMetric = s.counts.tasksRunning
  held : (allInstances s.instancesBySpec).Perm all.values
  once : ((allInstances s.instancesBySpec).map Instance.instanceId).Nodup
  placed : ∀ appId id i, (apply s.instancesBySpec appId).lookup id = some i →
    i.instanceId = id ∧ i.runSpecId = appId

/-- After any effects on any loaded instances the tracker is as if it counted anew. -/
theorem recomputed_run (l : List Instance) (effects : List InstanceUpdateEffect)
    (hl : ∀ i ∈ l, i.NamesSpec) (heffects : ∀ effect ∈ effects, effect.NamesSpec) :
    Recomputed (effects.foldl repositoryStateUpdated (initializing (forInstances l)))
      (effects.foldl InstancesBySpec.update (l.foldl Keyed.insert ∅)) := by
  have h := consistent_run effects heffects (consistent_initializing hl)
  have hperm := h.holds.perm
  refine ⟨h.counts.trans (TaskCounts.ofInstances_perm hperm.symm), h.stagedTasksMetric,
    h.runningTasksMetric, hperm, ?_, ?_⟩
  · exact (hperm.map Instance.instanceId).nodup_iff.mpr (Keyed.nodup_map_values _)
  · intro appId id i hi
    exact ⟨Keyed.key_of_lookup hi, (h.holds.runSpecId_of_lookup hi).1⟩

/-! ### Operations on the tracker -/

open InstanceUpdateOpResolver in
theorem namesSpec_resolve {clock : Timestamp} {maybeInstance : Option Instance}
    {op : InstanceUpdateOperation} {effect : InstanceUpdateEffect} (hop : op.NamesSpec)
    (hi : ∀ i ∈ maybeInstance, i.instanceId = op.instanceId ∧ i.NamesSpec)
    (h : resolve clock maybeInstance op = .ok effect) : effect.NamesSpec := by
  have hexisting : ∀ {id : InstanceId} {f : Instance → Except Thrown InstanceUpdateEffect},
      (∀ i effect, i.instanceId = op.instanceId → i.NamesSpec → f i = .ok effect →
        effect.NamesSpec) →
      updateExistingInstance maybeInstance id f = .ok effect → effect.NamesSpec := by
    intro id f hf hok
    rcases updateExistingInstance_eq_ok hok with ⟨_, rfl⟩ | ⟨i, hfound, hok⟩
    · trivial
    · exact hf i effect (hi i hfound).1 (hi i hfound).2 hok
  cases op with
  | schedule i =>
    cases h
    cases maybeInstance with
    | none => exact hop
    | some existing => trivial
  | revert i =>
    cases h
    exact hop
  | forceExpunge id =>
    cases maybeInstance with
    | none =>
      cases h
      trivial
    | some existing =>
      cases h
      exact (hi existing rfl).2
  | mesosUpdate =>
    apply hexisting _ h
    intro i effect _ hname hok
    obtain ⟨cause, rfl⟩ | rfl | ⟨updatedTask, _, rfl⟩ := InstanceUpdater.mesosUpdate_eq_ok hok
    · trivial
    · trivial
    · unfold InstanceUpdater.instanceUpdateEffectForTask
      dsimp only
      split_ifs
      · trivial
      all_goals exact hname
  | provision id agentInfo runSpec tasks now =>
    apply hexisting _ h
    intro i effect hid _ hok
    unfold Instance.provisioned at hok
    split_ifs at hok
    · cases hok
      exact hop.trans (congrArg InstanceId.runSpecId hid.symm)
    · cases hok
  | unreserve id =>
    apply hexisting _ h
    intro i effect _ hname hok
    unfold InstanceUpdater.unreserve at hok
    split_ifs at hok
    cases hok
    exact hname
  | changeGoal id goal =>
    apply hexisting _ h
    rintro i _ - hname ⟨⟩
    unfold InstanceUpdater.changeGoal
    dsimp only
    split_ifs <;> exact hname
  | reservationTimeout id =>
    apply hexisting _ h
    rintro i _ - hname ⟨⟩
    unfold InstanceUpdater.reservationTimeout
    split_ifs
    · exact hname
    · trivial
  | rescheduleReserved id runSpec =>
    apply hexisting _ h
    rintro i _ hid - ⟨⟩
    exact hop.trans (congrArg InstanceId.runSpecId hid.symm)
  | reserve =>
    apply hexisting _ h
    rintro i _ - hname ⟨⟩
    exact hname

/-- The actor on an operation, at a time; its effect may be persisted or not. -/
def process (s : Counting) (x : Timestamp × Bool × InstanceUpdateOperation) : Counting :=
  match InstanceUpdateOpResolver.resolve x.1 (findInstance s.instancesBySpec x.2.2.instanceId)
    x.2.2 with
  | .ok effect => if x.2.1 then s.repositoryStateUpdated effect else s
  | .error _ => s

theorem consistent_process (h : s.Consistent all) {x : Timestamp × Bool × InstanceUpdateOperation}
    (hop : x.2.2.NamesSpec) : ∃ all', (s.process x).Consistent all' := by
  rw [process, findInstance_eq, h.holds.lookup, if_pos rfl]
  split
  · rename_i effect hresolve
    split_ifs
    · refine ⟨_, consistent_repositoryStateUpdated h (namesSpec_resolve hop ?_ hresolve)⟩
      intro i hi
      have hid := Keyed.key_of_lookup hi
      exact ⟨hid, h.holds.namesSpec i (Keyed.mem_values.mpr (hid ▸ hi))⟩
    · exact ⟨all, h⟩
  · exact ⟨all, h⟩

/-- Whatever operations are processed, and whether or not they are persisted, the counts and the
gauges are those of the instances that the tracker holds, each of them under its run spec. -/
theorem consistent_operations (l : List Instance) (hl : ∀ i ∈ l, i.NamesSpec)
    (ops : List (Timestamp × Bool × InstanceUpdateOperation)) (hops : ∀ x ∈ ops, x.2.2.NamesSpec) :
    ∃ all, (ops.foldl process (initializing (forInstances l))).Consistent all := by
  obtain ⟨all, hall⟩ : ∃ all, (initializing (forInstances l)).Consistent all :=
    ⟨_, consistent_initializing hl⟩
  generalize initializing (forInstances l) = s at hall
  induction ops generalizing s all with
  | nil => exact ⟨all, hall⟩
  | cons x ops ih =>
    rw [List.forall_mem_cons] at hops
    obtain ⟨all', hall'⟩ := consistent_process hall hops.1
    exact ih hops.2 all' _ hall'

namespace Web

def instanceOf (uuid : ℕ) : Instance :=
  .scheduled (.app (plainApp ⟨["web"]⟩ ∅)) ⟨⟨["web"]⟩, .instance, ⟨uuid⟩⟩ ⟨0⟩

/-- An instance that is not known, and one that goes twice. -/
def effects : List InstanceUpdateEffect :=
  [.update (instanceOf 2) none [], .expunge (instanceOf 1) [], .expunge (instanceOf 1) []]

theorem recomputed_effects :
    Recomputed (effects.foldl repositoryStateUpdated (initializing (forInstances [instanceOf 1])))
      (effects.foldl InstancesBySpec.update ([instanceOf 1].foldl Keyed.insert ∅)) := by
  apply recomputed_run
  · exact List.forall_mem_singleton.mpr rfl
  · simp only [effects, List.forall_mem_cons]
    exact ⟨rfl, rfl, rfl, List.forall_mem_nil _⟩

theorem consistent_scheduled : ∃ all, ([(⟨0⟩, true, .schedule (instanceOf 2)),
    (⟨1⟩, true, .changeGoal (instanceOf 1).instanceId .stopped)].foldl process
      (initializing (forInstances [instanceOf 1]))).Consistent all := by
  apply consistent_operations
  · exact List.forall_mem_singleton.mpr rfl
  · simp only [List.forall_mem_cons]
    exact ⟨rfl, trivial, List.forall_mem_nil _⟩

end Web

end Counting

end Tracking

end Marathon
