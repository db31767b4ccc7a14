import Marathon.Launcher.PlacementRuns

/-!
# Placement while a run spec is scaled

The number of instances of a run spec changes while instances of its configuration are placed, and
each placed instance keeps the run spec that it was launched with. `GROUP_BY` divides the number
that the first of them knows of.
-/

namespace Marathon

open Lib

namespace RunSpec

/-- Only the number of instances changes, so the config stays the same. -/
structure ScalesTo (runSpec target : RunSpec) : Prop where
  onlyScale : runSpec.isOnlyScaleChange target = .ok true
  configRef_eq : target.configRef = runSpec.configRef
  instances_nonneg : 0 ≤ target.instances

theorem ScalesTo.constraints_eq {runSpec target : RunSpec} (h : runSpec.ScalesTo target) :
    target.constraints = runSpec.constraints := by
  have honly := h.onlyScale
  have hid : target.id = runSpec.id := congrArg RunSpecConfigRef.id h.configRef_eq
  cases runSpec with
  | app app =>
    cases target with
    | app target =>
      have hupgrade : app.isUpgrade target = false := by
        simp only [isOnlyScaleChange, Except.ok.injEq, AppDefinition.isOnlyScaleChange,
          Bool.and_eq_true, Bool.not_eq_true'] at honly
        exact honly.1
      have hruntime := (AppDefinition.isUpgrade_eq_false_iff hid.symm).mp hupgrade
      exact (congrArg AppDefinition.constraints hruntime).symm
    | pod target => cases honly
  | pod pod =>
    cases target with
    | app target => cases honly
    | pod target =>
      have hupgrade : pod.isUpgrade target = false := by
        simp only [isOnlyScaleChange, Except.ok.injEq, PodDefinition.isOnlyScaleChange,
          Bool.and_eq_true, Bool.not_eq_true'] at honly
        exact honly.1
      have hruntime := (PodDefinition.isUpgrade_eq_false_iff hid.symm).mp hupgrade
      exact (congrArg PodDefinition.constraints hruntime).symm

end RunSpec

namespace Constraints

open Mesos

variable {regex : Regex} {runSpec target : RunSpec} {known known' : List Instance} {c : Constraint}

theorem ofConfiguration_eq (h : target.configRef = runSpec.configRef) :
    ofConfiguration target known = ofConfiguration runSpec known := by
  have hversion : target.versionInfo.lastConfigChangeVersion =
      runSpec.versionInfo.lastConfigChangeVersion := congrArg RunSpecConfigRef.configVersion h
  rw [ofConfiguration, ofConfiguration, hversion]

/-- The known instances of a run spec that is scaled any number of times. An instance is placed
with the run spec of that moment; it stays where it is, or it ends. -/
inductive ScaledPlacing (regex : Regex) : RunSpec → List Instance → Prop
  | start {runSpec : RunSpec} {known : List Instance} (h : ofConfiguration runSpec known = [])
      (hinstances : 0 ≤ runSpec.instances) : ScaledPlacing regex runSpec known
  | scale {runSpec target : RunSpec} {known : List Instance} (h : ScaledPlacing regex runSpec known)
      (hscale : runSpec.ScalesTo target) : ScaledPlacing regex target known
  | place {runSpec : RunSpec} {known known' : List Instance} {offer : Mesos.Offer}
      {slaveId : String} {i : Instance} (h : ScaledPlacing regex runSpec known)
      (haccepted : meetsAllConstraints regex runSpec known offer = true)
      (hagent : i.agentInfo = some (.ofOffer offer slaveId))
      (hinstances : i.runSpec.instances = runSpec.instances)
      (hknown : ((ofConfiguration runSpec known').map seat).Perm
        (seat i :: (ofConfiguration runSpec known).map seat)) : ScaledPlacing regex runSpec known'
  | update {runSpec : RunSpec} {known known' : List Instance} (h : ScaledPlacing regex runSpec known)
      (hknown : ((ofConfiguration runSpec known').map seat).Subperm
        ((ofConfiguration runSpec known).map seat)) : ScaledPlacing regex runSpec known'

/-- No more values than groups are used, and every placed instance has one. -/
structure Grouped (n : ℕ) (values : List (Option String)) : Prop where
  none_notMem : none ∉ values
  card_le : values.toFinset.card ≤ n

theorem Grouped.subset {n : ℕ} {values values' : List (Option String)} (h : Grouped n values)
    (hsub : values' ⊆ values) : Grouped n values' where
  none_notMem hnone := h.none_notMem (hsub hnone)
  card_le := by
    refine Nat.le_trans (Finset.card_le_card fun v hv => ?_) h.card_le
    exact List.mem_toFinset.mpr (hsub (List.mem_toFinset.mp hv))

theorem Grouped.cons {n q r : ℕ} {values : List (Option String)} {value : String}
    (h : Grouped n values) (hadmits : Spread.Admits n q r values (some value)) :
    Grouped n (some value :: values) where
  none_notMem := by simpa using h.none_notMem
  card_le := by
    unfold Spread.Admits at hadmits
    rw [List.toFinset_cons]
    by_cases hmem : some value ∈ values
    · rw [Finset.insert_eq_of_mem (List.mem_toFinset.mpr hmem)]
      exact h.card_le
    · rw [if_neg hmem] at hadmits
      rw [Finset.card_insert_of_notMem (by simpa using hmem)]
      exact hadmits

theorem values_subset {placed placed' : List Instance} (field : String)
    (h : placed'.map seat ⊆ placed.map seat) :
    placed'.map (placedValue field) ⊆ placed.map (placedValue field) := by
  obtain ⟨value, hvalue⟩ := exists_agentValue field
  intro v hv
  obtain ⟨i, hi, rfl⟩ := List.mem_map.mp hv
  obtain ⟨j, hj, hseat⟩ := List.mem_map.mp (h (List.mem_map_of_mem hi))
  have hagent : j.agentInfo = i.agentInfo := congrArg Prod.fst hseat
  refine List.mem_map.mpr ⟨j, hj, ?_⟩
  rw [hvalue, hvalue, hagent]

theorem meetsConstraint_groupBy {value : String} {offer : Mesos.Offer} (hop : c.operator = .groupBy)
    (hvalue : offerValue c.field offer = some value) :
    meetsConstraint regex known offer c = checkGroupBy known c value (placedValue c.field) := by
  rw [meetsConstraint, hvalue, checkConstraint, hop]

theorem desiredInstanceCount_nonneg (h : ∀ i ∈ known, 0 ≤ i.runSpec.instances) :
    0 ≤ desiredInstanceCount known := by
  cases known with
  | nil => exact Int.one_nonneg
  | cons i known => exact h i List.mem_cons_self

/-- What scaling does not change: each placed instance knows of a number of instances, and `GROUP_BY`
gives them at most as many values as groups. -/
structure ScaledPlacing.Invariant (runSpec : RunSpec) (placed : List Instance) : Prop where
  instances_nonneg : 0 ≤ runSpec.instances
  counts_nonneg : ∀ i ∈ placed, 0 ≤ i.runSpec.instances
  grouped : ∀ c ∈ runSpec.constraints, c.operator = .groupBy →
    ∀ n : ℕ, getIntValue c.getValue 0 = n → 1 ≤ n → Grouped n (placed.map (placedValue c.field))

namespace ScaledPlacing

theorem Invariant.subset {placed placed' : List Instance} (h : Invariant runSpec placed)
    (hsub : placed'.map seat ⊆ placed.map seat) : Invariant runSpec placed' where
  instances_nonneg := h.instances_nonneg
  counts_nonneg i hi := by
    obtain ⟨j, hj, hseat⟩ := List.mem_map.mp (hsub (List.mem_map_of_mem hi))
    have hcount : j.runSpec.instances = i.runSpec.instances := congrArg Prod.snd hseat
    rw [← hcount]
    exact h.counts_nonneg j hj
  grouped c hc hop n hn hpos := (h.grouped c hc hop n hn hpos).subset (values_subset c.field hsub)

/-- An accepted placement. -/
theorem Invariant.cons {placed : List Instance} {offer : Mesos.Offer} {slaveId : String}
    {i : Instance} (h : Invariant runSpec placed)
    (haccepted : ∀ c ∈ runSpec.constraints, meetsConstraint regex placed offer c = .ok true)
    (hagent : i.agentInfo = some (.ofOffer offer slaveId))
    (hinstances : i.runSpec.instances = runSpec.instances) : Invariant runSpec (i :: placed) where
  instances_nonneg := h.instances_nonneg
  counts_nonneg j hj := by
    rcases List.mem_cons.mp hj with rfl | hj
    · rw [hinstances]
      exact h.instances_nonneg
    · exact h.counts_nonneg j hj
  grouped c hc hop n hn hpos := by
    have hmeets := haccepted c hc
    obtain ⟨-, hunlike⟩ | ⟨value, hvalue, -⟩ := meetsConstraint_cases hmeets
    · rw [hop] at hunlike
      cases hunlike
    rw [meetsConstraint_groupBy hop hvalue, checkGroupBy_iff hn hpos
      (desiredInstanceCount_nonneg h.counts_nonneg) rfl] at hmeets
    rw [List.map_cons, placedValue_of_offer hagent, hvalue]
    exact (h.grouped c hc hop n hn hpos).cons hmeets

theorem invariant (h : ScaledPlacing regex runSpec known) :
    Invariant runSpec (ofConfiguration runSpec known) := by
  induction h with
  | start hnone hinstances =>
    rw [hnone]
    exact ⟨hinstances, by simp, fun c _ _ n _ _ => ⟨List.not_mem_nil, Nat.zero_le n⟩⟩
  | scale _ hscale ih =>
    rw [ofConfiguration_eq hscale.configRef_eq]
    exact ⟨hscale.instances_nonneg, ih.counts_nonneg, hscale.constraints_eq ▸ ih.grouped⟩
  | place _ haccepted hagent hinstances hknown ih =>
    refine (ih.cons (of_decide_eq_true haccepted) hagent hinstances).subset ?_
    rw [List.map_cons]
    exact hknown.subset
  | update _ hknown ih => exact ih.subset hknown.subset

end ScaledPlacing

theorem exists_offerValue (field value : String) :
    ∃ offer : Mesos.Offer, offerValue field offer = some value := by
  unfold offerValue
  cases selector field with
  | hostname => exact ⟨⟨value, "*", none, none, []⟩, rfl⟩
  | region => exact ⟨⟨"host", "*", some value, none, []⟩, rfl⟩
  | zone => exact ⟨⟨"host", "*", none, some value, []⟩, rfl⟩
  | attributeName name =>
    refine ⟨⟨"host", "*", none, none, [⟨name, .text value⟩]⟩, ?_⟩
    simp [attributeValue, getValueString]

/-- There are fewer values than groups, or fewer instances than the first one knows of, or too few
instances of some value for that number. -/
def HasRoom (n : ℕ) (desired : ℤ) (values : List (Option String)) : Prop :=
  values.toFinset.card < n ∨ values.length < desired ∨ Below (desired.toNat / n) values

/-- An offer with a value that is not used yet, or used the least when there are as many values as
groups, is accepted exactly while there is room by the number that the first placed instance knows
of. Whether the run spec wants more instances by now plays no role. -/
theorem ScaledPlacing.accepts_wanted_iff (h : ScaledPlacing regex runSpec known)
    (hc : c ∈ runSpec.constraints) (hop : c.operator = .groupBy) {n : ℕ}
    (hn : getIntValue c.getValue 0 = n) (hpos : 1 ≤ n) :
    (∀ (offer : Mesos.Offer) (value : String), offerValue c.field offer = some value →
      Wanted n ((ofConfiguration runSpec known).map (placedValue c.field)) (some value) →
        meetsConstraint regex (ofConfiguration runSpec known) offer c = .ok true) ↔
      HasRoom n (desiredInstanceCount (ofConfiguration runSpec known))
        ((ofConfiguration runSpec known).map (placedValue c.field)) := by
  have hinvariant := h.invariant
  have hgrouped := hinvariant.grouped c hc hop n hn hpos
  have hdesired := desiredInstanceCount_nonneg hinvariant.counts_nonneg
  revert hgrouped hdesired
  generalize ofConfiguration runSpec known = placed
  intro hgrouped hdesired
  have hmeets : ∀ (offer : Mesos.Offer) (value : String), offerValue c.field offer = some value →
      (meetsConstraint regex placed offer c = .ok true ↔
        Spread.Admits n ((desiredInstanceCount placed).toNat / n)
          ((desiredInstanceCount placed).toNat % n) (placed.map (placedValue c.field))
          (some value)) := by
    intro offer value hvalue
    rw [meetsConstraint_groupBy hop hvalue]
    exact checkGroupBy_iff hn hpos hdesired rfl
  have htotal := Nat.div_add_mod (desiredInstanceCount placed).toNat n
  rw [Nat.mul_comm] at htotal
  have hroom : HasRoom n (desiredInstanceCount placed) (placed.map (placedValue c.field)) ↔
      ∀ v, Wanted n (placed.map (placedValue c.field)) v →
        Spread.Admits n ((desiredInstanceCount placed).toNat / n)
          ((desiredInstanceCount placed).toNat % n) (placed.map (placedValue c.field)) v := by
    rw [Spread.forall_wanted_iff hgrouped.card_le (Nat.mod_lt _ hpos), htotal, HasRoom]
    have hlength : ((placed.map (placedValue c.field)).length : ℤ) < desiredInstanceCount placed ↔
        (placed.map (placedValue c.field)).length < (desiredInstanceCount placed).toNat := by
      omega
    rw [hlength]
  rw [hroom]
  constructor
  · intro hall v hv
    cases v with
    | none =>
      -- no instance is without a value, so this one is not counted among the groups
      have hfew : (placed.map (placedValue c.field)).toFinset.card < n := by
        by_contra hnot
        rw [Wanted, if_neg hnot] at hv
        exact hgrouped.none_notMem hv.1
      rw [Spread.Admits, if_neg hgrouped.none_notMem]
      exact hfew
    | some value =>
      obtain ⟨offer, hvalue⟩ := exists_offerValue c.field value
      exact (hmeets offer value hvalue).mp (hall offer value hvalue hv)
  · intro hall offer value hvalue hv
    exact (hmeets offer value hvalue).mpr (hall _ hv)

/-! ## Two instances become four -/

namespace ScaledPlacing

open Placing

def largerShop : RunSpec :=
  .app { plainApp ⟨["shop"]⟩ ∅ with instances := 4, constraints := {twoHosts} }

def shopInstances : List Instance := [placedOn "host2" 1, placedOn "host1" 0]

theorem scalesTo_largerShop : shop.ScalesTo largerShop where
  onlyScale := by
    have hupgrade : shop.isUpgrade largerShop = .ok false :=
      congrArg Except.ok (AppDefinition.isUpgrade_of_runtime_eq rfl)
    rw [RunSpec.isOnlyScaleChange_eq hupgrade]
    rfl
  configRef_eq := rfl
  instances_nonneg := by decide

theorem placed_largerShop : ScaledPlacing (fun _ _ => false) largerShop shopInstances := by
  have hempty : ScaledPlacing (fun _ _ => false) shop [] := .start rfl (by decide)
  have hfirst : ScaledPlacing (fun _ _ => false) shop [placedOn "host1" 0] :=
    .place hempty (i := placedOn "host1" 0) (by decide) rfl rfl (.refl _)
  have hsecond : ScaledPlacing (fun _ _ => false) shop shopInstances :=
    .place hfirst (i := placedOn "host2" 1) (by decide) rfl rfl (.refl _)
  exact .scale hsecond scalesTo_largerShop

theorem shop_accepts_wanted_iff :
    (∀ (offer : Mesos.Offer) (value : String), offerValue "@hostname" offer = some value →
      Wanted 2 (shopInstances.map (placedValue "@hostname")) (some value) →
        meetsConstraint (fun _ _ => false) shopInstances offer twoHosts = .ok true) ↔
      HasRoom 2 (desiredInstanceCount shopInstances)
        (shopInstances.map (placedValue "@hostname")) :=
  accepts_wanted_iff placed_largerShop (c := twoHosts) (by decide) rfl rfl (by decide)

/-- The third instance is wanted on either host and placed on none. -/
theorem not_forall_accepts_wanted :
    ¬∀ (regex : Regex) (runSpec : RunSpec) (known : List Instance),
      ScaledPlacing regex runSpec known → ∀ c ∈ runSpec.constraints, c.operator = .groupBy →
        ∀ n : ℕ, getIntValue c.getValue 0 = n → 1 ≤ n →
          (ofConfiguration runSpec known).length < runSpec.instances →
            ∀ (offer : Mesos.Offer) (value : String), offerValue c.field offer = some value →
              Wanted n ((ofConfiguration runSpec known).map (placedValue c.field)) (some value) →
                meetsConstraint regex (ofConfiguration runSpec known) offer c = .ok true := by
  intro h
  have hwanted : Wanted 2 ((ofConfiguration largerShop shopInstances).map
      (placedValue twoHosts.field)) (some "host1") := by
    unfold Wanted
    decide
  have haccepted := h _ largerShop shopInstances placed_largerShop twoHosts (by decide) rfl 2 rfl
    (by decide) (by decide) (offerOf "host1") "host1" rfl hwanted
  have hrefused : meetsConstraint (fun _ _ => false) (ofConfiguration largerShop shopInstances)
      (offerOf "host1") twoHosts = .ok false := by decide
  rw [hrefused] at haccepted
  cases haccepted

end ScaledPlacing

end Constraints

end Marathon
