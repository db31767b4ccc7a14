import Marathon.Deployment.ExactProposition
import Marathon.Launcher.PlacementRuns

/-!
# Kills that constraints select

When a run spec is scaled down, the instances to kill are selected such that the groups of each
`GROUP_BY` constraint get more even. One instance is selected after another, as long as there is one
that does so for all constraints.
-/

namespace Marathon

open Lib

variable {field : String} {i : Instance} {killed killed' : List Instance}

namespace Constraints

/-- In which order sets and hash maps are gone through. -/
structure HashOrder where
  constraints : Finset Constraint → List Constraint
  constraints_eq : ∀ s, (constraints s : Multiset Constraint) = s.val
  groups : List InstancesById → List InstancesById
  groups_perm : ∀ l, (groups l).Perm l
  instances : List Instance → List Instance
  instances_perm : ∀ l, (instances l).Perm l

/-! ## Distributions -/

structure GroupByDistribution where
  constraint : Constraint
  distribution : List InstancesById

/-- `groupBy`, with the groups in the order in which they are met last. -/
def groupBy {α : Type} [DecidableEq α] (f : Instance → α) (instances : List Instance) :
    List (List Instance) :=
  (instances.map f).dedup.map fun v => instances.filter fun i => f i = v

/-- The instances of a map without those of another. -/
def without (group toKill : InstancesById) : List Instance :=
  group.values.filter fun i => (toKill.lookup i.instanceId).isNone

def largest (sizes : List ℕ) : ℕ := sizes.max?.getD 0

def smallest (sizes : List ℕ) : ℕ := sizes.min?.getD 0

namespace GroupByDistribution

def distributionDifference (d : GroupByDistribution) (toKill : InstancesById) : ℤ :=
  let sizes := d.distribution.map fun group => (without group toKill).length
  (largest sizes : ℤ) - smallest sizes

/-- The difference after the kill is 0=perfect, 1=tolerated or minimizes the difference. -/
def isMoreEvenWithout (d : GroupByDistribution) (selected : InstancesById) : Bool :=
  let diffAfterKill := d.distributionDifference selected
  diffAfterKill ≤ 1 || diffAfterKill < d.distributionDifference ∅

def findInstancesToKill (order : HashOrder) (d : GroupByDistribution) (toKill : InstancesById) :
    List Instance :=
  let updated := d.distribution.map fun group => without group toKill
  let sizes := updated.map List.length
  if sizes.dedup.length = 1 then [] -- even distributed
  else (updated.filter fun group => group.length = largest sizes).flatMap order.instances

end GroupByDistribution

/-! ## The selection -/

section Selection

variable (order : HashOrder) (runSpec : RunSpec) (runningInstances : List Instance)
  (toKillCount : ℤ)

/-- Currently, only the `GROUP_BY` operator is able to select instances to kill. -/
def groupByConstraints : List Constraint :=
  order.constraints (runSpec.constraints.filter fun c => c.operator = .groupBy)

def distributionOf (c : Constraint) : GroupByDistribution where
  constraint := c
  distribution := order.groups ((groupBy (placedValue c.field) runningInstances).map .ofInstances)

def distributions : List GroupByDistribution :=
  (groupByConstraints order runSpec).map (distributionOf order runningInstances)

/-- The instances that are tried: those of the most uneven distributions first, and as a fallback
all that are not selected. -/
def tried (toKillInstances : InstancesById) : List Instance :=
  let sorted := (distributions order runSpec runningInstances).insertionSort fun d e =>
    e.distributionDifference toKillInstances ≤ d.distributionDifference toKillInstances
  sorted.flatMap (·.findInstancesToKill order toKillInstances) ++
    runningInstances.filter fun i => (toKillInstances.lookup i.instanceId).isNone

def matchingInstance (toKillInstances : InstancesById) : Option Instance :=
  (tried order runSpec runningInstances toKillInstances).find? fun tryInstance =>
    (distributions order runSpec runningInstances).all fun d =>
      d.isMoreEvenWithout (toKillInstances.insert tryInstance)

/-- The loop, which does not end within the fuel if nothing is returned. -/
def selectLoop : ℕ → InstancesById → Bool → Option InstancesById
  | fuel, toKillInstances, flag =>
    if flag && (toKillInstances.values.length : ℤ) ≠ toKillCount then
      match fuel with
      | 0 => none
      | fuel + 1 =>
        match matchingInstance order runSpec runningInstances toKillInstances with
        | some i => selectLoop fuel (toKillInstances.insert i) flag
        | none => selectLoop fuel toKillInstances false
    else some toKillInstances

def selectInstancesToKill (fuel : ℕ) : Except String (Option (List Instance)) :=
  if runningInstances.length < toKillCount then .error "Can not kill more instances than running"
  else if runningInstances.length = toKillCount then .ok (some runningInstances)
  else if (distributions order runSpec runningInstances).isEmpty then .ok (some [])
  else
    .ok <| (selectLoop order runSpec runningInstances toKillCount fuel ∅ true).map fun m =>
      order.instances m.values

end Selection

/-! ## The groups of a field -/

/-- How many instances there are of each value of the field that some instance has, when some
instances are killed. -/
def groupSizes (field : String) (running killed : List Instance) : List ℕ :=
  (running.map (placedValue field)).dedup.map fun v => running.countP fun i =>
    placedValue field i = v && i.instanceId ∉ killed.map Instance.instanceId

def sizeDifference (field : String) (running killed : List Instance) : ℤ :=
  (largest (groupSizes field running killed) : ℤ) - smallest (groupSizes field running killed)

/-- The difference between the largest and the smallest group is at most 1 after the kill, or
smaller than before. -/
def MoreEven (field : String) (running killed : List Instance) : Prop :=
  sizeDifference field running killed ≤ 1 ∨
    sizeDifference field running killed < sizeDifference field running []

theorem max?_perm {l l' : List ℕ} (h : l.Perm l') : l.max? = l'.max? := by
  ext a
  rw [List.max?_eq_some_iff, List.max?_eq_some_iff, h.mem_iff]
  refine and_congr_right fun _ => forall_congr' fun b => ?_
  rw [h.mem_iff]

theorem min?_perm {l l' : List ℕ} (h : l.Perm l') : l.min? = l'.min? := by
  ext a
  rw [List.min?_eq_some_iff, List.min?_eq_some_iff, h.mem_iff]
  refine and_congr_right fun _ => forall_congr' fun b => ?_
  rw [h.mem_iff]

section Spec

variable {order : HashOrder} {runSpec : RunSpec} {running : List Instance} {toKillCount : ℤ}
  {m : InstancesById} {fuel : ℕ}

theorem lookup_isNone_iff {id : InstanceId} :
    (m.lookup id).isNone ↔ id ∉ m.values.map Instance.instanceId := by
  rw [Option.isNone_iff_eq_none, Keyed.lookup_eq_none, ← Keyed.keys_eq]
  exact Iff.rfl

theorem length_without {v : Option String} (h : (running.map Instance.instanceId).Nodup) :
    (without (.ofInstances (running.filter fun i => placedValue field i = v)) m).length =
      running.countP fun i =>
        placedValue field i = v && i.instanceId ∉ m.values.map Instance.instanceId := by
  have hids : ((running.filter fun i => placedValue field i = v).map Instance.instanceId).Nodup :=
    h.sublist (List.filter_sublist.map _)
  have hperm := (InstancesById.values_ofInstances_perm hids).filter fun i =>
    (m.lookup i.instanceId).isNone
  rw [without, hperm.length_eq, List.filter_filter, List.countP_eq_length_filter]
  congr 1
  refine List.filter_congr fun i _ => ?_
  rw [Bool.and_comm]
  congr 1
  rw [Bool.eq_iff_iff, decide_eq_true_iff]
  exact lookup_isNone_iff

theorem distributionDifference_eq (order : HashOrder) (c : Constraint)
    (h : (running.map Instance.instanceId).Nodup) (m : InstancesById) :
    (distributionOf order running c).distributionDifference m =
      sizeDifference c.field running m.values := by
  have hsizes : ((distributionOf order running c).distribution.map fun group =>
      (without group m).length).Perm (groupSizes c.field running m.values) := by
    refine ((order.groups_perm _).map _).trans (List.Perm.of_eq ?_)
    rw [groupBy, groupSizes, List.map_map, List.map_map]
    refine List.map_congr_left fun v _ => ?_
    exact length_without h
  rw [GroupByDistribution.distributionDifference, sizeDifference, largest, smallest, largest,
    smallest, max?_perm hsizes, min?_perm hsizes]

theorem isMoreEvenWithout_iff {c : Constraint} (h : (running.map Instance.instanceId).Nodup) :
    (distributionOf order running c).isMoreEvenWithout m = true ↔
      MoreEven c.field running m.values := by
  rw [GroupByDistribution.isMoreEvenWithout, distributionDifference_eq order c h,
    distributionDifference_eq order c h, Bool.or_eq_true, decide_eq_true_iff, decide_eq_true_iff]
  exact Iff.rfl

theorem mem_groupByConstraints {c : Constraint} :
    c ∈ groupByConstraints order runSpec ↔ c ∈ runSpec.constraints ∧ c.operator = .groupBy := by
  have hmem : c ∈ groupByConstraints order runSpec ↔
      c ∈ (groupByConstraints order runSpec : Multiset Constraint) := Multiset.mem_coe.symm
  rw [hmem, groupByConstraints, order.constraints_eq, Finset.mem_val, Finset.mem_filter]

theorem all_isMoreEvenWithout_iff (h : (running.map Instance.instanceId).Nodup) :
    ((distributions order runSpec running).all fun d => d.isMoreEvenWithout m) = true ↔
      ∀ c ∈ runSpec.constraints, c.operator = .groupBy → MoreEven c.field running m.values := by
  rw [List.all_eq_true, distributions]
  constructor
  · intro hall c hc hop
    have hmem : c ∈ groupByConstraints order runSpec := mem_groupByConstraints.mpr ⟨hc, hop⟩
    exact (isMoreEvenWithout_iff h).mp (hall _ (List.mem_map_of_mem hmem))
  · intro hall d hd
    obtain ⟨c, hc, rfl⟩ := List.mem_map.mp hd
    obtain ⟨hmem, hop⟩ := mem_groupByConstraints.mp hc
    exact (isMoreEvenWithout_iff h).mpr (hall c hmem hop)

/-! ## The loop -/

theorem mem_tried (h : (running.map Instance.instanceId).Nodup) :
    i ∈ tried order runSpec running m ↔
      i ∈ running ∧ i.instanceId ∉ m.values.map Instance.instanceId := by
  rw [tried, List.mem_append, List.mem_filter, lookup_isNone_iff]
  refine or_iff_right_of_imp fun hi => ?_
  obtain ⟨d, hd, hi⟩ := List.mem_flatMap.mp hi
  rw [List.mem_insertionSort, distributions] at hd
  obtain ⟨c, -, rfl⟩ := List.mem_map.mp hd
  rw [GroupByDistribution.findInstancesToKill] at hi
  split_ifs at hi with heven
  · cases hi
  · obtain ⟨group, hgroup, hi⟩ := List.mem_flatMap.mp hi
    obtain ⟨all, hall, rfl⟩ := List.mem_map.mp (List.mem_filter.mp hgroup).1
    obtain ⟨hmem, hselected⟩ := List.mem_filter.mp ((order.instances_perm _).mem_iff.mp hi)
    obtain ⟨some, hsome, rfl⟩ := List.mem_map.mp ((order.groups_perm _).mem_iff.mp hall)
    obtain ⟨v, -, rfl⟩ := List.mem_map.mp hsome
    have hids : ((running.filter fun i => placedValue c.field i = v).map
        Instance.instanceId).Nodup := h.sublist (List.filter_sublist.map _)
    have hrunning := (InstancesById.values_ofInstances_perm hids).mem_iff.mp hmem
    exact ⟨(List.mem_filter.mp hrunning).1, lookup_isNone_iff.mp hselected⟩

/-- What is selected at any time. -/
structure Selected (runSpec : RunSpec) (running : List Instance) (toKillCount : ℤ)
    (m : InstancesById) : Prop where
  subset : ∀ i ∈ m.values, i ∈ running
  length_le : (m.values.length : ℤ) ≤ toKillCount
  moreEven : m.values ≠ [] → ∀ c ∈ runSpec.constraints, c.operator = .groupBy →
    MoreEven c.field running m.values

/-- No other instance can be selected as well. -/
def NoneFits (runSpec : RunSpec) (running selected : List Instance) : Prop :=
  ∀ i ∈ running, i.instanceId ∉ selected.map Instance.instanceId →
    ¬∀ c ∈ runSpec.constraints, c.operator = .groupBy → MoreEven c.field running (i :: selected)

theorem values_insert_of_notMem
    (h : i.instanceId ∉ m.values.map Instance.instanceId) : (m.insert i).values = i :: m.values := by
  rw [Keyed.values_insert, Keyed.erase_of_none]
  exact Option.isNone_iff_eq_none.mp (lookup_isNone_iff.mpr h)

theorem matchingInstance_eq_some (h : (running.map Instance.instanceId).Nodup)
    (hi : matchingInstance order runSpec running m = some i) :
    i ∈ running ∧ i.instanceId ∉ m.values.map Instance.instanceId ∧
      ∀ c ∈ runSpec.constraints, c.operator = .groupBy → MoreEven c.field running (i :: m.values) := by
  obtain ⟨hrunning, hnew⟩ := (mem_tried h).mp (List.mem_of_find?_eq_some hi)
  have hmoreEven : ((distributions order runSpec running).all fun d =>
      d.isMoreEvenWithout (m.insert i)) = true := by
    rw [matchingInstance] at hi
    exact List.find?_some (p := fun j => (distributions order runSpec running).all fun d =>
      d.isMoreEvenWithout (m.insert j)) hi
  have hall := (all_isMoreEvenWithout_iff h).mp hmoreEven
  rw [values_insert_of_notMem hnew] at hall
  exact ⟨hrunning, hnew, hall⟩

theorem noneFits_of_matchingInstance (h : (running.map Instance.instanceId).Nodup)
    (hnone : matchingInstance order runSpec running m = none) :
    NoneFits runSpec running m.values := by
  intro i hi hnew hall
  have hnot := List.find?_eq_none.mp hnone i ((mem_tried h).mpr ⟨hi, hnew⟩)
  rw [← values_insert_of_notMem hnew] at hall
  exact hnot ((all_isMoreEvenWithout_iff h).mpr hall)

theorem Selected.insert (hm : Selected runSpec running toKillCount m)
    (hlt : (m.values.length : ℤ) < toKillCount) (hi : i ∈ running)
    (hnew : i.instanceId ∉ m.values.map Instance.instanceId)
    (hall : ∀ c ∈ runSpec.constraints, c.operator = .groupBy →
      MoreEven c.field running (i :: m.values)) :
    Selected runSpec running toKillCount (m.insert i) := by
  have hvalues := values_insert_of_notMem hnew
  refine ⟨fun j hj => ?_, ?_, fun _ => ?_⟩
  · rw [hvalues] at hj
    rcases List.mem_cons.mp hj with rfl | hj
    · exact hi
    · exact hm.subset j hj
  · rw [hvalues, List.length_cons]
    omega
  · rw [hvalues]
    exact hall

theorem selectLoop_of_length (hlength : (m.values.length : ℤ) = toKillCount) :
    selectLoop order runSpec running toKillCount fuel m true = some m := by
  rw [selectLoop.eq_def]
  simp [hlength]

theorem selectLoop_of_not_flag :
    selectLoop order runSpec running toKillCount fuel m false = some m := by
  rw [selectLoop.eq_def]
  simp

theorem selectLoop_spec (order : HashOrder) (h : (running.map Instance.instanceId).Nodup)
    (hm : Selected runSpec running toKillCount m) (hfuel : toKillCount - m.values.length ≤ fuel) :
    ∃ last, (∀ more, fuel ≤ more →
        selectLoop order runSpec running toKillCount more m true = some last) ∧
      Selected runSpec running toKillCount last ∧
      ((last.values.length : ℤ) < toKillCount → NoneFits runSpec running last.values) := by
  have hle := hm.length_le
  induction fuel generalizing m with
  | zero =>
    have hlength : (m.values.length : ℤ) = toKillCount := by omega
    exact ⟨m, fun _ _ => selectLoop_of_length hlength, hm, fun hlt => by omega⟩
  | succ fuel ih =>
    by_cases hlength : (m.values.length : ℤ) = toKillCount
    · exact ⟨m, fun _ _ => selectLoop_of_length hlength, hm, fun hlt => by omega⟩
    have hround : ∀ more, selectLoop order runSpec running toKillCount (more + 1) m true =
        match matchingInstance order runSpec running m with
        | some i => selectLoop order runSpec running toKillCount more (m.insert i) true
        | none => selectLoop order runSpec running toKillCount more m false := by
      intro more
      rw [selectLoop.eq_def]
      simp [hlength]
    cases hmatching : matchingInstance order runSpec running m with
    | some i =>
      obtain ⟨hi, hnew, hall⟩ := matchingInstance_eq_some h hmatching
      have hinsert := hm.insert (by omega) hi hnew hall
      have hgrown : ((m.insert i).values.length : ℤ) = m.values.length + 1 := by
        rw [values_insert_of_notMem hnew, List.length_cons]
        push_cast
        rfl
      obtain ⟨last, hlast, hselected⟩ := ih hinsert (by push_cast at hfuel; omega) hinsert.length_le
      refine ⟨last, fun more hmore => ?_, hselected⟩
      obtain ⟨more, rfl⟩ := Nat.exists_eq_succ_of_ne_zero (Nat.ne_zero_of_lt hmore)
      rw [hround, hmatching]
      exact hlast more (Nat.le_of_succ_le_succ hmore)
    | none =>
      refine ⟨m, fun more hmore => ?_, hm, fun _ => noneFits_of_matchingInstance h hmatching⟩
      obtain ⟨more, rfl⟩ := Nat.exists_eq_succ_of_ne_zero (Nat.ne_zero_of_lt hmore)
      rw [hround, hmatching]
      exact selectLoop_of_not_flag

theorem selected_empty (hcount : 0 ≤ toKillCount) : Selected runSpec running toKillCount ∅ where
  subset _ hi := absurd hi List.not_mem_nil
  length_le := hcount
  moreEven hne := absurd rfl hne

/-! ## What is selected -/

/-- The instances that are selected: at most as many as requested, and as many as fit. Unless there
are none, every constraint is more even without them. -/
structure SelectsKills (runSpec : RunSpec) (running : List Instance) (toKillCount : ℤ)
    (selected : List Instance) : Prop where
  distinct : (selected.map Instance.instanceId).Nodup
  subset : selected ⊆ running
  length_le : (selected.length : ℤ) ≤ toKillCount
  noneFits : (∃ c ∈ runSpec.constraints, c.operator = .groupBy) →
    (selected.length : ℤ) < toKillCount → NoneFits runSpec running selected
  moreEven : selected ≠ [] → ∀ c ∈ runSpec.constraints, c.operator = .groupBy →
    MoreEven c.field running selected

theorem sizeDifference_perm (h : killed.Perm killed') :
    sizeDifference field running killed = sizeDifference field running killed' := by
  have hsizes : groupSizes field running killed = groupSizes field running killed' := by
    unfold groupSizes
    simp only [(h.map Instance.instanceId).mem_iff]
  rw [sizeDifference, sizeDifference, hsizes]

theorem moreEven_perm (h : killed.Perm killed') :
    MoreEven field running killed ↔ MoreEven field running killed' := by
  rw [MoreEven, MoreEven, sizeDifference_perm h]

theorem moreEven_all : MoreEven field running running := by
  have hzero : ∀ n ∈ groupSizes field running running, n = 0 := by
    intro n hn
    obtain ⟨v, -, rfl⟩ := List.mem_map.mp hn
    refine List.countP_eq_zero.mpr fun i hi => ?_
    simp only [Bool.and_eq_true, decide_eq_true_iff, not_and, not_not]
    exact fun _ => List.mem_map_of_mem hi
  have hlargest : largest (groupSizes field running running) = 0 := by
    rw [largest]
    cases hmax : (groupSizes field running running).max? with
    | none => rfl
    | some n => exact hzero n (List.max?_eq_some_iff.mp hmax).1
  refine .inl ?_
  rw [sizeDifference, hlargest]
  omega

theorem SelectsKills.perm {selected selected' : List Instance}
    (h : SelectsKills runSpec running toKillCount selected) (hperm : selected'.Perm selected) :
    SelectsKills runSpec running toKillCount selected' where
  distinct := (hperm.map _).nodup_iff.mpr h.distinct
  subset _ hi := h.subset (hperm.subset hi)
  length_le := hperm.length_eq ▸ h.length_le
  noneFits hgroupBy hlt i hi hnew hall := by
    rw [hperm.length_eq] at hlt
    rw [(hperm.map _).mem_iff] at hnew
    refine h.noneFits hgroupBy hlt i hi hnew fun c hc hop => ?_
    exact (moreEven_perm (hperm.cons i)).mp (hall c hc hop)
  moreEven hne c hc hop := by
    refine (moreEven_perm hperm).mpr (h.moreEven ?_ c hc hop)
    rintro rfl
    exact hne hperm.eq_nil

/-- The selection ends. It selects what it can; with no `GROUP_BY` constraint that is nothing, unless
all instances are to be killed. -/
theorem selectInstancesToKill_spec (order : HashOrder) (runSpec : RunSpec)
    (h : (running.map Instance.instanceId).Nodup) (hcount : 0 ≤ toKillCount)
    (hle : toKillCount ≤ running.length) :
    ∃ selected, (∀ fuel : ℕ, toKillCount ≤ fuel →
        selectInstancesToKill order runSpec running toKillCount fuel = .ok (some selected)) ∧
      SelectsKills runSpec running toKillCount selected ∧
      ((∀ c ∈ runSpec.constraints, c.operator ≠ .groupBy) → toKillCount < running.length →
        selected = []) := by
  by_cases hall : (running.length : ℤ) = toKillCount
  · refine ⟨running, fun _ _ => ?_, ⟨h, List.Subset.refl _, hall.le, ?_, ?_⟩, ?_⟩
    · rw [selectInstancesToKill, if_neg (not_lt.mpr hle), if_pos hall]
    · intro _ hlt
      omega
    · exact fun _ c _ _ => moreEven_all
    · intro _ hlt
      omega
  by_cases hempty : (distributions order runSpec running).isEmpty
  · have hnone : ∀ c ∈ runSpec.constraints, c.operator ≠ .groupBy := by
      intro c hc hop
      have hmem : distributionOf order running c ∈ distributions order runSpec running :=
        List.mem_map_of_mem (mem_groupByConstraints.mpr ⟨hc, hop⟩)
      rw [List.isEmpty_iff.mp hempty] at hmem
      cases hmem
    refine ⟨[], fun _ _ => ?_, ⟨List.nodup_nil, List.nil_subset _, hcount, ?_, ?_⟩, ?_⟩
    · rw [selectInstancesToKill, if_neg (not_lt.mpr hle), if_neg hall, if_pos hempty]
    · rintro ⟨c, hc, hop⟩
      exact absurd hop (hnone c hc)
    · exact fun hne => absurd rfl hne
    · exact fun _ _ => rfl
  · have hempty' : Selected runSpec running toKillCount ∅ := selected_empty hcount
    have hfuel : toKillCount - (∅ : InstancesById).values.length ≤ toKillCount.toNat := by simp
    obtain ⟨last, hlast, hselected, hnoneFits⟩ := selectLoop_spec order h hempty' hfuel
    refine ⟨order.instances last.values, fun fuel hfuel => ?_, ?_, fun hnone => ?_⟩
    · rw [selectInstancesToKill, if_neg (not_lt.mpr hle), if_neg hall, if_neg hempty,
        hlast fuel (by omega)]
      rfl
    · exact SelectsKills.perm ⟨last.nodup_map_values, hselected.subset, hselected.length_le,
        fun _ => hnoneFits, hselected.moreEven⟩ (order.instances_perm _)
    · refine absurd (List.isEmpty_iff.mpr (List.eq_nil_iff_forall_not_mem.mpr fun d hd => ?_)) hempty
      obtain ⟨c, hc, -⟩ := List.mem_map.mp hd
      obtain ⟨hmem, hop⟩ := mem_groupByConstraints.mp hc
      exact hnone c hmem hop

end Spec

namespace SelectedKills

open Placing

/-- Sets in the order of their elements' choice, hash maps in the order of their entries. -/
noncomputable def anyOrder : HashOrder where
  constraints s := s.val.toList
  constraints_eq s := s.val.coe_toList
  groups l := l
  groups_perm := .refl
  instances l := l
  instances_perm := .refl

/-- Three instances on each of two hosts, and one on a third. -/
def crowded : List Instance :=
  [placedOn "host1" 0, placedOn "host1" 1, placedOn "host1" 2, placedOn "host2" 3,
    placedOn "host2" 4, placedOn "host2" 5, placedOn "host3" 6]

theorem selectInstancesToKill_crowded :
    ∃ selected, (∀ fuel : ℕ, (1 : ℤ) ≤ fuel →
        selectInstancesToKill anyOrder shop crowded 1 fuel = .ok (some selected)) ∧
      SelectsKills shop crowded 1 selected ∧
      ((∀ c ∈ shop.constraints, c.operator ≠ .groupBy) → (1 : ℤ) < crowded.length →
        selected = []) :=
  selectInstancesToKill_spec anyOrder shop (by decide) (by decide) (by decide)

theorem not_moreEven_nil : ¬MoreEven "@hostname" crowded [] := by
  unfold MoreEven
  decide +kernel

theorem not_moreEven_singleton : ∀ i ∈ crowded, ¬MoreEven "@hostname" crowded [i] := by
  unfold MoreEven
  decide +kernel

/-- Whichever instance is killed, one group keeps three instances and another has at most one. -/
theorem not_forall_moreEven :
    ¬∀ (order : HashOrder) (runSpec : RunSpec) (running : List Instance) (toKillCount : ℤ),
      (running.map Instance.instanceId).Nodup → 0 ≤ toKillCount → toKillCount ≤ running.length →
        ∃ (fuel : ℕ) (selected : List Instance),
          selectInstancesToKill order runSpec running toKillCount fuel = .ok (some selected) ∧
          (selected.map Instance.instanceId).Nodup ∧ selected ⊆ running ∧
          (selected.length : ℤ) ≤ toKillCount ∧
          ((selected.length : ℤ) < toKillCount → NoneFits runSpec running selected) ∧
          ∀ c ∈ runSpec.constraints, c.operator = .groupBy → MoreEven c.field running selected := by
  intro hall
  obtain ⟨-, selected, -, -, hsubset, hlength, -, hmoreEven⟩ :=
    hall anyOrder shop crowded 1 (by decide) (by decide) (by decide)
  have htwoHosts : MoreEven "@hostname" crowded selected :=
    hmoreEven twoHosts (by decide) rfl
  rcases selected with _ | ⟨i, _ | ⟨j, rest⟩⟩
  · exact not_moreEven_nil htwoHosts
  · exact not_moreEven_singleton i (hsubset List.mem_cons_self) htwoHosts
  · rw [List.length_cons, List.length_cons] at hlength
    omega

end SelectedKills

end Constraints

end Marathon
