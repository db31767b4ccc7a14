import Marathon.Deployment.KillOrders

/-!
# Exact propositions

What is proposed decommissions as many instances as there are too many, the sentenced ones first
and the chosen ones next. The others are sorted before, by a sort that may fail.
-/

namespace Marathon

open Lib

namespace InstancesById

variable {instances : List Instance}

/-- Instances with distinct ids are all in the map. -/
theorem values_ofInstances_perm (h : (instances.map Instance.instanceId).Nodup) :
    (ofInstances instances).values.Perm instances := by
  have hnone : ∀ i ∈ instances, (∅ : InstancesById).lookup i.instanceId = none := fun _ _ => rfl
  refine (List.perm_ext_iff_of_nodup (ofInstances instances).nodup_map_values.of_map
    h.of_map).mpr fun i => ?_
  rw [ofInstances, Keyed.mem_values_foldl_insert h hnone]
  exact or_iff_right (List.not_mem_nil)

theorem lookup_ofInstances_isSome_iff {id : InstanceId} :
    ((ofInstances instances).lookup id).isSome ↔ id ∈ instances.map Instance.instanceId := by
  have hfold : ∀ (l : List Instance) (map : InstancesById),
      ((l.foldl .insert map).lookup id).isSome ↔
        (map.lookup id).isSome ∨ id ∈ l.map Instance.instanceId := by
    intro l
    induction l with
    | nil => intro map; simp
    | cons i l ih =>
      intro map
      rw [List.foldl_cons, ih, Keyed.lookup_insert, List.map_cons, List.mem_cons]
      split_ifs with heq
      · simp [heq]
      · simp [heq]
  exact (hfold instances ∅).trans (or_iff_right Bool.false_ne_true)

theorem mem_values_foldl_erase {map : InstancesById} {removed : List Instance} {i : Instance} :
    i ∈ (removed.foldl (fun map i => map.erase i.instanceId) map).values ↔
      i ∈ map.values ∧ i.instanceId ∉ removed.map Instance.instanceId := by
  induction removed generalizing map with
  | nil => simp
  | cons j removed ih =>
    rw [List.foldl_cons, ih, Keyed.mem_values, Keyed.lookup_erase, List.map_cons, List.mem_cons]
    split_ifs with heq
    · simp [heq]
    · simp [heq, ← Keyed.mem_values]

end InstancesById

namespace ScalingProposition

/-! ## The parts of a proposition -/

/-- The goal is to run, and the instance is not given up. -/
def counts (i : Instance) : Bool :=
  i.state.goal = .running && i.state.condition != .unreachableInactive

def instancesGoalRunning (instances : List Instance) : InstancesById :=
  .ofInstances (instances.filter counts)

section Parts

variable (instances toDecommission : List Instance)

def isSentenced (i : Instance) : Bool :=
  ((InstancesById.ofInstances toDecommission).lookup i.instanceId).isSome

def sentencedAndRunningMap : InstancesById :=
  .ofInstances ((instancesGoalRunning instances).values.filter (isSentenced toDecommission))

def notSentencedAndRunningMap : InstancesById :=
  .ofInstances ((instancesGoalRunning instances).values.filter fun i => !isSentenced toDecommission i)

variable (scaleTo : ℤ)

def decommissionCount : ℤ :=
  max ((instancesGoalRunning instances).values.length - scaleTo)
    (sentencedAndRunningMap instances toDecommission).values.length

variable (order : InstancesById.Order) (meetConstraints : List Instance → ℤ → List Instance)

/-- The sentenced ones are considered already killed. -/
def killToMeetConstraints : List Instance :=
  meetConstraints (order.list (notSentencedAndRunningMap instances toDecommission))
    (decommissionCount instances toDecommission scaleTo -
      (sentencedAndRunningMap instances toDecommission).values.length)

def rest : List Instance :=
  order.list <|
    (killToMeetConstraints instances toDecommission scaleTo order meetConstraints).foldl
      (fun map i => map.erase i.instanceId) (notSentencedAndRunningMap instances toDecommission)

/-- `propose`, with a sort that may fail. -/
def proposeWith (sorts : SortWith Instance) (now : Timestamp) (killSelection : KillSelection) :
    Option ScalingProposition :=
  (sorts.sort (sortByConditionAndDate now killSelection)
      (rest instances toDecommission scaleTo order meetConstraints)).map fun sortedRest =>
    let orderedDecommissionCandidates :=
      order.list (sentencedAndRunningMap instances toDecommission) ++
        killToMeetConstraints instances toDecommission scaleTo order meetConstraints ++ sortedRest
    { toDecommission := orderedDecommissionCandidates.take
        (decommissionCount instances toDecommission scaleTo).toNat
      toStart := scaleTo - (instancesGoalRunning instances).values.length +
        decommissionCount instances toDecommission scaleTo }

variable {instances toDecommission scaleTo order meetConstraints}

/-! ## How they make up the instances -/

/-- The selector returns at most the requested number of distinct instances of those it is given. -/
structure Selects (meetConstraints : List Instance → ℤ → List Instance) : Prop where
  nodup : ∀ instances n, 0 ≤ n → instances.Nodup → (meetConstraints instances n).Nodup
  subset : ∀ instances n, 0 ≤ n → instances.Nodup → meetConstraints instances n ⊆ instances
  length_le : ∀ instances n, 0 ≤ n → instances.Nodup →
    ((meetConstraints instances n).length : ℤ) ≤ n

theorem nodup_of_ids {l : List Instance} {p : Instance → Bool}
    (h : (l.map Instance.instanceId).Nodup) : ((l.filter p).map Instance.instanceId).Nodup :=
  h.sublist (List.filter_sublist.map _)

theorem goalRunning_perm (h : (instances.map Instance.instanceId).Nodup) :
    (instancesGoalRunning instances).values.Perm (instances.filter counts) :=
  InstancesById.values_ofInstances_perm (nodup_of_ids h)

theorem partition_perm (p : Instance → Bool) (h : (instances.map Instance.instanceId).Nodup) :
    (InstancesById.ofInstances ((instancesGoalRunning instances).values.filter p)).values.Perm
      ((instances.filter counts).filter p) := by
  have hids : ((instancesGoalRunning instances).values.map Instance.instanceId).Nodup :=
    (instancesGoalRunning instances).nodup_map_values
  exact (InstancesById.values_ofInstances_perm (nodup_of_ids hids)).trans
    ((goalRunning_perm h).filter p)

theorem decommissionCount_eq (toDecommission : List Instance) (scaleTo : ℤ) (h : (instances.map Instance.instanceId).Nodup) :
    decommissionCount instances toDecommission scaleTo =
      max ((instances.filter counts).length - scaleTo)
        ((instances.filter counts).filter (isSentenced toDecommission)).length := by
  rw [decommissionCount, (goalRunning_perm h).length_eq, sentencedAndRunningMap,
    (partition_perm _ h).length_eq]

theorem requested_nonneg (instances toDecommission : List Instance) (scaleTo : ℤ) :
    0 ≤ decommissionCount instances toDecommission scaleTo -
    (sentencedAndRunningMap instances toDecommission).values.length := by
  have hle := le_max_right ((instancesGoalRunning instances).values.length - scaleTo)
    ((sentencedAndRunningMap instances toDecommission).values.length : ℤ)
  exact Int.sub_nonneg.mpr hle

theorem given_nodup (order : InstancesById.Order) (map : InstancesById) : (order.list map).Nodup :=
  (order.perm map).nodup_iff.mpr map.nodup_map_values.of_map

section Candidates

variable {sortedRest : List Instance}

theorem candidates_perm (h : (instances.map Instance.instanceId).Nodup)
    (hselects : Selects meetConstraints)
    (hsorted : sortedRest.Perm (rest instances toDecommission scaleTo order meetConstraints)) :
    (order.list (sentencedAndRunningMap instances toDecommission) ++
      killToMeetConstraints instances toDecommission scaleTo order meetConstraints ++
        sortedRest).Perm (instances.filter counts) := by
  have hgiven := given_nodup order (notSentencedAndRunningMap instances toDecommission)
  have hchosen : (killToMeetConstraints instances toDecommission scaleTo order
      meetConstraints).Nodup := hselects.nodup _ _ (requested_nonneg instances toDecommission scaleTo) hgiven
  have hsubset : ∀ i ∈ killToMeetConstraints instances toDecommission scaleTo order meetConstraints,
      i ∈ (notSentencedAndRunningMap instances toDecommission).values := fun i hi =>
    (order.perm _).mem_iff.mp (hselects.subset _ _ (requested_nonneg instances toDecommission scaleTo) hgiven hi)
  have hrest : (rest instances toDecommission scaleTo order meetConstraints).Perm
      ((notSentencedAndRunningMap instances toDecommission).values.filter fun i =>
        decide (i.instanceId ∉ (killToMeetConstraints instances toDecommission scaleTo order
          meetConstraints).map Instance.instanceId)) := by
    refine (order.perm _).trans ((List.perm_ext_iff_of_nodup ?_ ?_).mpr fun i => ?_)
    · exact (Keyed.nodup_map_values _).of_map
    · exact (Keyed.nodup_map_values _).of_map.filter _
    · rw [InstancesById.mem_values_foldl_erase, List.mem_filter, decide_eq_true_iff]
  have hothers : (killToMeetConstraints instances toDecommission scaleTo order meetConstraints ++
      sortedRest).Perm (notSentencedAndRunningMap instances toDecommission).values := by
    refine ((hsorted.trans hrest).append_left _).trans ?_
    refine (List.perm_ext_iff_of_nodup ?_ (Keyed.nodup_map_values _).of_map).mpr fun i => ?_
    · refine List.nodup_append.mpr ⟨hchosen, (Keyed.nodup_map_values _).of_map.filter _, ?_⟩
      rintro i hi j hj rfl
      exact of_decide_eq_true (List.mem_filter.mp hj).2 (List.mem_map_of_mem hi)
    · rw [List.mem_append, List.mem_filter, decide_eq_true_iff]
      constructor
      · rintro (hi | ⟨hi, -⟩)
        · exact hsubset i hi
        · exact hi
      · intro hi
        by_cases hid : i.instanceId ∈ (killToMeetConstraints instances toDecommission scaleTo order
            meetConstraints).map Instance.instanceId
        · -- instances of the map with one id are the same
          obtain ⟨j, hj, heq⟩ := List.mem_map.mp hid
          have hsame := List.inj_on_of_nodup_map (Keyed.nodup_map_values _) (hsubset j hj) hi heq
          exact .inl (hsame ▸ hj)
        · exact .inr ⟨hi, hid⟩
  rw [List.append_assoc]
  have hsentenced := (order.perm (sentencedAndRunningMap instances toDecommission)).trans
    (partition_perm (isSentenced toDecommission) h)
  have hnotSentenced := hothers.trans
    (partition_perm (fun i => !isSentenced toDecommission i) h)
  exact (hsentenced.append hnotSentenced).trans (List.filter_append_perm _ _)

end Candidates

/-! ## Exactness -/

/-- What a proposition has to be for the instances that count: `chosen` are the choices of the
selector. -/
structure Exact (instances toDecommission chosen : List Instance) (scaleTo : ℤ)
    (p : ScalingProposition) : Prop where
  distinct : (p.toDecommission.map Instance.instanceId).Nodup
  counted : ∀ i ∈ p.toDecommission, i ∈ instances ∧ counts i
  sentenced : ∀ i ∈ instances, counts i → i.instanceId ∈ toDecommission.map Instance.instanceId →
    i ∈ p.toDecommission
  length : (p.toDecommission.length : ℤ) = max ((instances.filter counts).length - scaleTo)
    ((instances.filter counts).filter fun i =>
      i.instanceId ∈ toDecommission.map Instance.instanceId).length
  chosen_first : ∃ first others, p.toDecommission = first ++ chosen ++ others ∧
    ∀ i ∈ first, i.instanceId ∈ toDecommission.map Instance.instanceId
  toStart_nonneg : 0 ≤ p.toStart
  balance : (instances.filter counts).length - (p.toDecommission.length : ℤ) + p.toStart = scaleTo

theorem isSentenced_eq : isSentenced toDecommission = fun i =>
    decide (i.instanceId ∈ toDecommission.map Instance.instanceId) := by
  funext i
  rw [Bool.eq_iff_iff, decide_eq_true_iff]
  exact InstancesById.lookup_ofInstances_isSome_iff

theorem exact_of_sorted {sortedRest : List Instance}
    (h : (instances.map Instance.instanceId).Nodup) (hscale : 0 ≤ scaleTo)
    (hselects : Selects meetConstraints)
    (hsorted : sortedRest.Perm (rest instances toDecommission scaleTo order meetConstraints)) :
    Exact instances toDecommission
      (killToMeetConstraints instances toDecommission scaleTo order meetConstraints) scaleTo
      { toDecommission := (order.list (sentencedAndRunningMap instances toDecommission) ++
          killToMeetConstraints instances toDecommission scaleTo order meetConstraints ++
            sortedRest).take (decommissionCount instances toDecommission scaleTo).toNat
        toStart := scaleTo - (instancesGoalRunning instances).values.length +
          decommissionCount instances toDecommission scaleTo } := by
  have hperm := candidates_perm h hselects hsorted
  have hcount := decommissionCount_eq toDecommission scaleTo h
  have hrunning := (goalRunning_perm h).length_eq
  have hsentencedPerm := (order.perm (sentencedAndRunningMap instances toDecommission)).trans
    (partition_perm (isSentenced toDecommission) h)
  have hchosen : ((killToMeetConstraints instances toDecommission scaleTo order
      meetConstraints).length : ℤ) ≤ decommissionCount instances toDecommission scaleTo -
        (sentencedAndRunningMap instances toDecommission).values.length :=
    hselects.length_le _ _ (requested_nonneg instances toDecommission scaleTo) (given_nodup order _)
  have hsentencedLength := (order.perm (sentencedAndRunningMap instances toDecommission)).length_eq
  have hnonneg := requested_nonneg instances toDecommission scaleTo
  have hfilter : ((instances.filter counts).filter (isSentenced toDecommission)).length ≤
      (instances.filter counts).length := List.length_filter_le _ _
  have htake : (order.list (sentencedAndRunningMap instances toDecommission) ++
      killToMeetConstraints instances toDecommission scaleTo order meetConstraints ++
        sortedRest).take (decommissionCount instances toDecommission scaleTo).toNat =
      order.list (sentencedAndRunningMap instances toDecommission) ++
        killToMeetConstraints instances toDecommission scaleTo order meetConstraints ++
          sortedRest.take ((decommissionCount instances toDecommission scaleTo).toNat -
            (order.list (sentencedAndRunningMap instances toDecommission) ++
              killToMeetConstraints instances toDecommission scaleTo order
                meetConstraints).length) := by
    rw [List.take_append, List.take_of_length_le]
    rw [List.length_append]
    omega
  have hlength : ((order.list (sentencedAndRunningMap instances toDecommission) ++
      killToMeetConstraints instances toDecommission scaleTo order meetConstraints ++
        sortedRest).take (decommissionCount instances toDecommission scaleTo).toNat).length =
      (decommissionCount instances toDecommission scaleTo).toNat := by
    rw [List.length_take, hperm.length_eq]
    omega
  have hnodup : ((order.list (sentencedAndRunningMap instances toDecommission) ++
      killToMeetConstraints instances toDecommission scaleTo order meetConstraints ++
        sortedRest).map Instance.instanceId).Nodup :=
    (hperm.map _).nodup_iff.mpr (nodup_of_ids h)
  refine ⟨hnodup.sublist ((List.take_sublist _ _).map _), fun i hi => ?_, fun i hi hcounts hid => ?_,
    ?_, ⟨_, _, htake, fun i hi => ?_⟩, ?_, ?_⟩
  · exact List.mem_filter.mp (hperm.mem_iff.mp (List.mem_of_mem_take hi))
  · dsimp only
    rw [htake]
    refine List.mem_append_left _ (List.mem_append_left _ (hsentencedPerm.mem_iff.mpr ?_))
    exact List.mem_filter.mpr ⟨List.mem_filter.mpr ⟨hi, hcounts⟩,
      InstancesById.lookup_ofInstances_isSome_iff.mpr hid⟩
  · rw [isSentenced_eq] at hcount
    rw [hlength, ← hcount]
    omega
  · have hmem := (List.mem_filter.mp (hsentencedPerm.mem_iff.mp hi)).2
    exact InstancesById.lookup_ofInstances_isSome_iff.mp hmem
  · dsimp only
    omega
  · dsimp only
    omega

/-- The instance counts, and is neither sentenced nor chosen by the selector. -/
structure Remains (instances toDecommission chosen : List Instance) (i : Instance) : Prop where
  mem : i ∈ instances
  counts : counts i
  not_sentenced : i.instanceId ∉ toDecommission.map Instance.instanceId
  not_chosen : i.instanceId ∉ chosen.map Instance.instanceId

theorem mem_rest_iff {i : Instance} (h : (instances.map Instance.instanceId).Nodup) :
    i ∈ rest instances toDecommission scaleTo order meetConstraints ↔
      Remains instances toDecommission
        (killToMeetConstraints instances toDecommission scaleTo order meetConstraints) i := by
  rw [rest, (order.perm _).mem_iff, InstancesById.mem_values_foldl_erase, notSentencedAndRunningMap,
    (partition_perm _ h).mem_iff, List.mem_filter, List.mem_filter, isSentenced_eq]
  constructor
  · rintro ⟨⟨⟨hmem, hcounts⟩, hsentenced⟩, hchosen⟩
    exact ⟨hmem, hcounts, by simpa using hsentenced, hchosen⟩
  · rintro ⟨hmem, hcounts, hsentenced, hchosen⟩
    exact ⟨⟨⟨hmem, hcounts⟩, by simpa using hsentenced⟩, hchosen⟩

theorem pairwise_rest_iff {now : Timestamp} (h : (instances.map Instance.instanceId).Nodup) :
    ((rest instances toDecommission scaleTo order meetConstraints).Pairwise fun a b =>
        ¬Undated now a b) ↔
      ∀ a b, a ≠ b →
        Remains instances toDecommission
            (killToMeetConstraints instances toDecommission scaleTo order meetConstraints) a →
          Remains instances toDecommission
              (killToMeetConstraints instances toDecommission scaleTo order meetConstraints) b →
            ¬Undated now a b := by
  have : Std.Symm fun a b => ¬Undated now a b := ⟨fun a b hab hba => hab hba.symm⟩
  constructor
  · intro hall a b hne ha hb
    exact hall.forall ((mem_rest_iff h).mpr ha) ((mem_rest_iff h).mpr hb) hne
  · intro hall
    refine (given_nodup order _).pairwise_of_forall_ne fun a ha b hb hne => ?_
    exact hall a b hne ((mem_rest_iff h).mp ha) ((mem_rest_iff h).mp hb)

/-- What every sort that keeps its promise proposes is exact if and only if no two of the instances
that remain are of one weight and without a time. With two of them a sort may fail. -/
theorem propose_exact_iff {now : Timestamp} {killSelection : KillSelection}
    (h : (instances.map Instance.instanceId).Nodup) (hscale : 0 ≤ scaleTo)
    (hselects : Selects meetConstraints) :
    (∀ sorts : SortWith Instance, ∃ p,
      proposeWith instances toDecommission scaleTo order meetConstraints sorts now killSelection =
          some p ∧
        Exact instances toDecommission
          (killToMeetConstraints instances toDecommission scaleTo order meetConstraints) scaleTo p) ↔
      ∀ a b, a ≠ b →
        Remains instances toDecommission
            (killToMeetConstraints instances toDecommission scaleTo order meetConstraints) a →
          Remains instances toDecommission
              (killToMeetConstraints instances toDecommission scaleTo order meetConstraints) b →
            ¬Undated now a b := by
  rw [← pairwise_rest_iff h]
  have hconsistent : ∀ {l : List Instance}, Consistent (sortByConditionAndDate now killSelection) l ↔
      l.Pairwise fun a b => ¬Undated now a b := consistent_sortByConditionAndDate_iff
  constructor
  · intro hall
    rw [← hconsistent, ← SortWith.forall_isSome_iff]
    intro sorts
    obtain ⟨p, hp, -⟩ := hall sorts
    obtain ⟨sorted, hsort, -⟩ := Option.map_eq_some_iff.mp hp
    rw [hsort]
    rfl
  · intro hdated sorts
    obtain ⟨sorted, hsort, hsorted⟩ := sorts.sorts
      (hconsistent.mpr hdated)
    refine ⟨_, ?_, exact_of_sorted h hscale hselects hsorted.perm⟩
    rw [proposeWith, hsort]
    rfl

end Parts

/-! ## Instances that were never active -/

open KillOrders

/-- A selector that has nothing to choose by. -/
def chooseNone : List Instance → ℤ → List Instance := fun _ _ => []

theorem selects_chooseNone : Selects chooseNone where
  nodup _ _ _ _ := List.nodup_nil
  subset _ _ _ _ := List.nil_subset _
  length_le _ _ hn _ := hn

def valuesOrder : InstancesById.Order := ⟨fun m => m.values.reverse, fun m => m.values.reverse_perm⟩

theorem waiting_propose_exact_iff :
    (∀ sorts : SortWith Instance, ∃ p,
      proposeWith [waiting 0, waiting 1] [] 1 valuesOrder chooseNone sorts ⟨0⟩ .youngestFirst =
          some p ∧
        Exact [waiting 0, waiting 1] []
          (killToMeetConstraints [waiting 0, waiting 1] [] 1 valuesOrder chooseNone) 1 p) ↔
      ∀ a b, a ≠ b → Remains [waiting 0, waiting 1] [] [] a →
        Remains [waiting 0, waiting 1] [] [] b → ¬Undated ⟨0⟩ a b :=
  propose_exact_iff (by decide) (by decide) selects_chooseNone

/-- An instance that was never active, and whose agent is not reachable. -/
def lost (k : ℕ) : Instance :=
  { waiting (.ofNat 128 k) with state := ⟨.unreachable, ⟨0⟩, none, none, .running⟩ }

def active (k : ℕ) (since : ℤ) : Instance :=
  { waiting (.ofNat 128 k) with state := ⟨.running, ⟨0⟩, some ⟨since⟩, none, .running⟩ }

/-- Two lost instances, each in front of active ones that are sorted already. -/
def crowd : List Instance :=
  lost 0 :: (List.range 16).map (fun k => active (k + 1) (100 + k)) ++
    lost 17 :: (List.range 15).map fun k => active (k + 18) k

theorem not_forall_propose_exact :
    ¬∀ (sorts : SortWith Instance) (order : InstancesById.Order) (now : Timestamp)
      (killSelection : KillSelection) (instances toDecommission : List Instance)
      (meetConstraints : List Instance → ℤ → List Instance) (scaleTo : ℤ),
      (instances.map Instance.instanceId).Nodup → 0 ≤ scaleTo → Selects meetConstraints →
        ∃ p, proposeWith instances toDecommission scaleTo order meetConstraints sorts now
            killSelection = some p ∧
          Exact instances toDecommission
            (killToMeetConstraints instances toDecommission scaleTo order meetConstraints) scaleTo
            p := by
  intro h
  have hids : (crowd.map Instance.instanceId).Nodup := by decide +kernel
  obtain ⟨p, hp, -⟩ := h (SortWith.strict Instance) valuesOrder ⟨0⟩ .oldestFirst crowd [] chooseNone
    32 hids (by decide) selects_chooseNone
  obtain ⟨sorted, hsort, -⟩ := Option.map_eq_some_iff.mp hp
  have hconsistent := SortWith.strict_sort_isSome_iff.mp (Option.isSome_iff_exists.mpr ⟨_, hsort⟩)
  have hdated := consistent_sortByConditionAndDate_iff.mp hconsistent
  have hfirst : lost 0 ∈ rest crowd [] 32 valuesOrder chooseNone :=
    (mem_rest_iff hids).mpr ⟨List.mem_cons_self, rfl, List.not_mem_nil, List.not_mem_nil⟩
  have hsecond : lost 17 ∈ rest crowd [] 32 valuesOrder chooseNone :=
    (mem_rest_iff hids).mpr
      ⟨List.mem_append_right _ List.mem_cons_self, rfl, List.not_mem_nil, List.not_mem_nil⟩
  have hne : lost 0 ≠ lost 17 := by
    intro heq
    have hid : (lost 0).instanceId ≠ (lost 17).instanceId := by decide
    exact hid (congrArg Instance.instanceId heq)
  have : Std.Symm fun a b => ¬Undated ⟨0⟩ a b := ⟨fun a b hab hba => hab hba.symm⟩
  exact hdated.forall hfirst hsecond hne ⟨rfl, rfl, rfl⟩

end ScalingProposition

end Marathon
