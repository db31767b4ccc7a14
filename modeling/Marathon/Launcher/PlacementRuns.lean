import Marathon.Launcher.Constraints
import Marathon.Lib.Spread
import Marathon.State.RootGroup

/-!
# Placement constraints over runs

Instances of one configuration are placed one after another, each on an offer that meets the
constraints given those placed before. What each operator says of the placed instances then holds
of them at all times.
-/

namespace Marathon

open Lib

/-- `AgentInfo.apply` of an offer, with the id of its agent. -/
def AgentInfo.ofOffer (offer : Mesos.Offer) (slaveId : String) : AgentInfo where
  host := offer.hostname
  agentId := some slaveId
  region := offer.region
  zone := offer.zone
  attributes := offer.attributes

namespace Constraints

open Mesos

/-! ## What a placed instance has of a field -/

theorem placedValue_of_offer {i : Instance} {offer : Mesos.Offer} {slaveId : String}
    (h : i.agentInfo = some (.ofOffer offer slaveId)) (field : String) :
    placedValue field i = offerValue field offer := by
  unfold placedValue offerValue
  cases selector field with
  | hostname => simp [Instance.hostname, h, AgentInfo.ofOffer]
  | region => simp [Instance.region, h, AgentInfo.ofOffer]
  | zone => simp [Instance.zone, h, AgentInfo.ofOffer]
  | attributeName name => simp [Instance.attributes, h, AgentInfo.ofOffer]

theorem exists_agentValue (field : String) :
    ∃ value : Option AgentInfo → Option String, ∀ i, placedValue field i = value i.agentInfo := by
  unfold placedValue
  cases selector field with
  | hostname => exact ⟨fun info => info.map AgentInfo.host, fun _ => rfl⟩
  | region => exact ⟨fun info => info.bind AgentInfo.region, fun _ => rfl⟩
  | zone => exact ⟨fun info => info.bind AgentInfo.zone, fun _ => rfl⟩
  | attributeName name =>
    exact ⟨fun info => attributeValue name ((info.map AgentInfo.attributes).getD []), fun _ => rfl⟩

/-! ## What the operators say of the values -/

/-- What the constraint says of the values that the placed instances have of its field. -/
def Respected (c : Constraint) (instances : ℤ) (values : List (Option String)) : Prop :=
  match c.operator with
  | .unique => values.Nodup ∧ none ∉ values
  | .cluster =>
    ∃ value, (c.getValue ≠ "" → value = c.getValue) ∧ ∀ v ∈ values, v = some value
  | .maxPer =>
    ∀ n : ℕ, parseInt c.getValue = some (n : ℤ) → 1 ≤ n → none ∉ values ∧ AtMost n values
  | .groupBy =>
    ∀ n : ℕ, getIntValue c.getValue 0 = n → 1 ≤ n → values.length ≤ instances →
      none ∉ values ∧ Spread n (instances.toNat / n) (instances.toNat % n) values
  | _ => True

theorem respected_nil (c : Constraint) (instances : ℤ) : Respected c instances [] := by
  unfold Respected
  cases c.operator with
  | unique => exact ⟨List.nodup_nil, List.not_mem_nil⟩
  | cluster => exact ⟨c.getValue, fun _ => rfl, by simp⟩
  | maxPer => exact fun n _ _ => ⟨List.not_mem_nil, .nil⟩
  | groupBy => exact fun n _ _ _ => ⟨List.not_mem_nil, .nil⟩
  | like => trivial
  | unlike => trivial
  | is => trivial

theorem Respected.perm {c : Constraint} {instances : ℤ} {values values' : List (Option String)}
    (h : Respected c instances values) (hperm : values.Perm values') :
    Respected c instances values' := by
  unfold Respected at h ⊢
  have hmem : ∀ v, v ∈ values' ↔ v ∈ values := fun v => hperm.mem_iff.symm
  cases hop : c.operator with
  | unique =>
    rw [hop] at h
    obtain ⟨hnodup, hnone⟩ := h
    exact ⟨hperm.nodup hnodup, fun hv => hnone ((hmem none).mp hv)⟩
  | cluster =>
    rw [hop] at h
    obtain ⟨value, hvalue, hall⟩ := h
    exact ⟨value, hvalue, fun v hv => hall v ((hmem v).mp hv)⟩
  | maxPer =>
    rw [hop] at h
    intro n hn hpos
    obtain ⟨hnone, hcount⟩ := h n hn hpos
    exact ⟨fun hv => hnone ((hmem none).mp hv), hcount.perm hperm⟩
  | groupBy =>
    rw [hop] at h
    intro n hn hpos hlength
    rw [← hperm.length_eq] at hlength
    obtain ⟨hnone, hspread⟩ := h n hn hpos hlength
    exact ⟨fun hv => hnone ((hmem none).mp hv), hspread.perm hperm⟩
  | like => trivial
  | unlike => trivial
  | is => trivial

/-! ## One more instance -/

section Step

variable {known : List Instance} {c : Constraint} {value : String}
  {placed : Instance → Option String}

theorem find_group {α β : Type} [DecidableEq α] (l : List α) (f : α → β) (a : α) :
    ((l.map fun g => (g, f g)).find? fun g => g.1 = a) = if a ∈ l then some (a, f a) else none := by
  induction l with
  | nil => rfl
  | cons b l ih =>
    by_cases hb : b = a
    · simp [hb]
    · have hne : a ≠ b := fun heq => hb heq.symm
      rw [List.map_cons, List.find?_cons_of_neg (by simpa using hb), ih]
      simp [hne]

/-- The number of instances that `GROUP_BY` goes by, which the first placed one knows of. -/
def desiredInstanceCount (known : List Instance) : ℤ :=
  (known.head?.map fun i => i.runSpec.instances).getD 1

/-- What `GROUP_BY` accepts are the values that may be added to those that are there. -/
theorem checkGroupBy_iff {n : ℕ} {instances : ℤ} (hn : getIntValue c.getValue 0 = n) (hpos : 1 ≤ n)
    (hinstances : 0 ≤ instances) (hknown : desiredInstanceCount known = instances) :
    checkGroupBy known c value placed = .ok true ↔
      Spread.Admits n (instances.toNat / n) (instances.toNat % n) (known.map placed)
        (some value) := by
  have hgroups : max 0 (getIntValue c.getValue 0) = (n : ℤ) := by omega
  have hne : (n : ℤ) ≠ 0 := by omega
  unfold checkGroupBy
  rw [hgroups, if_neg hne, find_group]
  unfold Spread.Admits
  by_cases hmem : some value ∈ known.map placed
  · have hquota : instances.tdiv n = ((instances.toNat / n : ℕ) : ℤ) := by
      rw [Int.ofNat_tdiv, Int.toNat_of_nonneg hinstances]
    have hrest : instances.tmod n = ((instances.toNat % n : ℕ) : ℤ) := by
      rw [Int.ofNat_tmod, Int.toNat_of_nonneg hinstances]
    have hconsumed : ((((known.map placed).dedup.map fun group =>
          (group, ((known.countP fun i => placed i = group : ℕ) : ℤ))).map fun group =>
            max 0 (group.2 - ((instances.toNat / n : ℕ) : ℤ))).sum : ℤ) =
        (excess (instances.toNat / n) (known.map placed) : ℕ) := by
      rw [excess_eq_sum_dedup]
      induction (known.map placed).dedup with
      | nil => rfl
      | cons v l ih =>
        rw [List.map_cons, List.map_cons, List.sum_cons, ih, List.map_cons, List.sum_cons,
          countP_map_eq]
        omega
    unfold desiredInstanceCount at hknown
    rw [if_pos (List.mem_dedup.mpr hmem), hknown, hquota, hrest]
    dsimp only
    rw [hconsumed, if_pos hmem, Except.ok.injEq, Bool.or_eq_true, Bool.and_eq_true,
      decide_eq_true_iff, decide_eq_true_iff, decide_eq_true_iff, countP_map_eq]
    omega
  · rw [if_neg (fun hv => hmem (List.mem_dedup.mp hv)), if_neg hmem, List.card_toFinset]
    simp

theorem admits_of_checkGroupBy {n : ℕ} {instances : ℤ} (hn : getIntValue c.getValue 0 = n)
    (hpos : 1 ≤ n) (hinstances : 0 ≤ instances)
    (hknown : ∀ i ∈ known, i.runSpec.instances = instances)
    (h : checkGroupBy known c value placed = .ok true) :
    Spread.Admits n (instances.toNat / n) (instances.toNat % n) (known.map placed)
      (some value) := by
  cases known with
  | nil => exact (checkGroupBy_iff hn hpos Int.one_nonneg rfl).mp h
  | cons i known =>
    have hdesired : desiredInstanceCount (i :: known) = instances := hknown i List.mem_cons_self
    exact (checkGroupBy_iff hn hpos hinstances hdesired).mp h

theorem lt_of_checkMaxPer {n : ℕ} (hpos : 1 ≤ n) (h : checkMaxPer known value n placed = true) :
    (known.countP fun i => placed i = some value) < n := by
  rw [checkMaxPer, Bool.or_eq_true, decide_eq_true_iff, decide_eq_true_iff] at h
  omega

theorem notMem_of_checkUnique (h : checkUnique known value placed = true) :
    some value ∉ known.map placed := by
  intro hmem
  obtain ⟨i, hi, hvalue⟩ := List.mem_map.mp hmem
  exact of_decide_eq_true (List.all_eq_true.mp h i hi) hvalue

theorem respected_cons {regex : Regex} {offer : Mesos.Offer} {instances : ℤ}
    (hknown : ∀ i ∈ known, i.runSpec.instances = instances)
    (h : meetsConstraint regex known offer c = .ok true)
    (hrespected : Respected c instances (known.map (placedValue c.field))) :
    Respected c instances (offerValue c.field offer :: known.map (placedValue c.field)) := by
  have hnone : ∀ {value : String} {values : List (Option String)}, none ∉ values →
      none ∉ some value :: values := fun hvalues => by simpa using hvalues
  obtain ⟨hvalue, hop⟩ | ⟨value, hvalue, hcheck⟩ := meetsConstraint_cases h
  · unfold Respected
    rw [hop]
    trivial
  rw [hvalue]
  unfold Respected at hrespected ⊢
  unfold checkConstraint at hcheck
  cases hop : c.operator with
  | unique =>
    rw [hop] at hrespected hcheck
    obtain ⟨hnodup, hvalues⟩ := hrespected
    have hnew := notMem_of_checkUnique (Except.ok.inj hcheck)
    exact ⟨List.nodup_cons.mpr ⟨hnew, hnodup⟩, hnone hvalues⟩
  | cluster =>
    rw [hop] at hrespected hcheck
    obtain ⟨common, hcommon, hall⟩ := hrespected
    have hcluster : checkCluster known c value (placedValue c.field) = true := Except.ok.inj hcheck
    unfold checkCluster at hcluster
    split_ifs at hcluster with hempty
    · cases known with
      | nil => exact ⟨value, fun h => absurd hempty h, by simp⟩
      | cons i known =>
        have hfirst : placedValue c.field i = some value := of_decide_eq_true hcluster
        have hsame := hall _ List.mem_cons_self
        rw [hfirst] at hsame
        refine ⟨common, hcommon, fun v hv => ?_⟩
        rcases List.mem_cons.mp hv with rfl | hv
        · exact hsame
        · exact hall v hv
    · have heq : value = c.getValue := of_decide_eq_true hcluster
      refine ⟨common, hcommon, fun v hv => ?_⟩
      rcases List.mem_cons.mp hv with rfl | hv
      · rw [heq, hcommon hempty]
      · exact hall v hv
  | maxPer =>
    rw [hop] at hrespected hcheck
    intro n hn hpos
    obtain ⟨hvalues, hatMost⟩ := hrespected n hn hpos
    dsimp only at hcheck
    rw [hn] at hcheck
    have hlt := lt_of_checkMaxPer hpos (Except.ok.inj hcheck)
    rw [countP_map_eq] at hlt
    exact ⟨hnone hvalues, hatMost.cons hlt⟩
  | groupBy =>
    rw [hop] at hrespected hcheck
    intro n hn hpos hlength
    rw [List.length_cons] at hlength
    obtain ⟨hvalues, hspread⟩ := hrespected n hn hpos (by omega)
    have hadmits := admits_of_checkGroupBy hn hpos (by omega) hknown hcheck
    refine ⟨hnone hvalues, hspread.cons hadmits ?_⟩
    have htotal := Nat.div_add_mod instances.toNat n
    rw [Nat.mul_comm] at htotal
    omega
  | like => trivial
  | unlike => trivial
  | is => trivial

end Step

/-! ## Runs -/

/-- What `ResourceMatcher` compares with: instances of older configurations are ignored. -/
def ofConfiguration (runSpec : RunSpec) (knownInstances : List Instance) : List Instance :=
  knownInstances.filter fun i => runSpec.versionInfo.lastConfigChangeVersion ≤ i.runSpecVersion

/-- `meetsAllConstraints` of `ResourceMatcher`; an offer for which a check throws is not matched. -/
def meetsAllConstraints (regex : Regex) (runSpec : RunSpec) (knownInstances : List Instance)
    (offer : Mesos.Offer) : Bool :=
  decide (∀ c ∈ runSpec.constraints,
    meetsConstraint regex (ofConfiguration runSpec knownInstances) offer c = .ok true)

/-- Where an instance is placed, and how many there are to be. -/
def seat (i : Instance) : Option AgentInfo × ℤ := (i.agentInfo, i.runSpec.instances)

/-- The known instances while those of the configuration are placed one after another. They stay
where they are, in any order; instances of older configurations come and go. -/
inductive Placing (regex : Regex) (runSpec : RunSpec) : List Instance → Prop
  | start {known : List Instance} (h : ofConfiguration runSpec known = []) :
    Placing regex runSpec known
  | place {known known' : List Instance} {offer : Mesos.Offer} {slaveId : String} {i : Instance}
      (h : Placing regex runSpec known)
      (haccepted : meetsAllConstraints regex runSpec known offer = true)
      (hagent : i.agentInfo = some (.ofOffer offer slaveId))
      (hinstances : i.runSpec.instances = runSpec.instances)
      (hknown : ((ofConfiguration runSpec known').map seat).Perm
        (seat i :: (ofConfiguration runSpec known).map seat)) : Placing regex runSpec known'
  | update {known known' : List Instance} (h : Placing regex runSpec known)
      (hknown : ((ofConfiguration runSpec known').map seat).Perm
        ((ofConfiguration runSpec known).map seat)) : Placing regex runSpec known'

theorem perm_map_of_seat {β : Type} {f : Instance → β} {g : Option AgentInfo × ℤ → β}
    (hf : ∀ i, f i = g (seat i)) {placed placed' : List Instance}
    (h : (placed.map seat).Perm (placed'.map seat)) : (placed.map f).Perm (placed'.map f) := by
  have hmap : ∀ l : List Instance, l.map f = (l.map seat).map g := by
    intro l
    rw [List.map_map]
    exact List.map_congr_left fun i _ => hf i
  rw [hmap, hmap]
  exact h.map g

/-- The instances that are placed are to be as many as the run spec says, and respect each of its
constraints. -/
theorem Placing.invariant {regex : Regex} {runSpec : RunSpec} {known : List Instance}
    (h : Placing regex runSpec known) :
    (∀ i ∈ ofConfiguration runSpec known, i.runSpec.instances = runSpec.instances) ∧
      ∀ c ∈ runSpec.constraints, Respected c runSpec.instances
        ((ofConfiguration runSpec known).map (placedValue c.field)) := by
  have hseats : ∀ {instances : ℤ} {placed placed' : List Instance},
      (∀ s ∈ placed.map seat, s.2 = instances) → (placed'.map seat).Perm (placed.map seat) →
        ∀ i ∈ placed', i.runSpec.instances = instances := by
    intro instances placed placed' hall hperm i hi
    exact hall (seat i) (hperm.mem_iff.mp (List.mem_map_of_mem hi))
  have hvalues : ∀ {placed placed' : List Instance} (field : String),
      (placed.map seat).Perm (placed'.map seat) →
        (placed.map (placedValue field)).Perm (placed'.map (placedValue field)) := by
    intro placed placed' field hperm
    obtain ⟨value, hvalue⟩ := exists_agentValue field
    exact perm_map_of_seat (g := fun s => value s.1) hvalue hperm
  induction h with
  | start hnone =>
    rw [hnone]
    exact ⟨by simp, fun c _ => respected_nil c _⟩
  | @place known known' offer slaveId i _ haccepted hagent hinstances hknown ih =>
    obtain ⟨hcount, hrespected⟩ := ih
    rw [← List.map_cons] at hknown
    refine ⟨hseats ?_ hknown, fun c hc => ?_⟩
    · intro s hs
      obtain ⟨j, hj, rfl⟩ := List.mem_map.mp hs
      rcases List.mem_cons.mp hj with rfl | hj
      · exact hinstances
      · exact hcount j hj
    · have hmeets := of_decide_eq_true haccepted c hc
      have hnew := respected_cons hcount hmeets (hrespected c hc)
      rw [← placedValue_of_offer hagent] at hnew
      exact hnew.perm (hvalues c.field hknown.symm)
  | update _ hknown ih =>
    obtain ⟨hcount, hrespected⟩ := ih
    refine ⟨hseats ?_ hknown, fun c hc => (hrespected c hc).perm (hvalues c.field hknown.symm)⟩
    intro s hs
    obtain ⟨j, hj, rfl⟩ := List.mem_map.mp hs
    exact hcount j hj

/-- At all times the instances that are placed respect every constraint of the run spec; when they
are as many as they are to be, those of `GROUP_BY` are spread evenly over its groups. -/
theorem Placing.respected {regex : Regex} {runSpec : RunSpec} {known : List Instance}
    (h : Placing regex runSpec known) {c : Constraint} (hc : c ∈ runSpec.constraints) :
    Respected c runSpec.instances ((ofConfiguration runSpec known).map (placedValue c.field)) ∧
      ∀ n : ℕ, c.operator = .groupBy → getIntValue c.getValue 0 = n → 1 ≤ n →
        (ofConfiguration runSpec known).length = runSpec.instances →
          Even n (runSpec.instances.toNat / n)
            ((ofConfiguration runSpec known).map (placedValue c.field)) := by
  have hrespected := h.invariant.2 c hc
  refine ⟨hrespected, fun n hop hn hpos hlength => ?_⟩
  unfold Respected at hrespected
  rw [hop] at hrespected
  obtain ⟨-, hspread⟩ := hrespected n hn hpos (by rw [List.length_map]; omega)
  refine hspread.even ?_
  have htotal := Nat.div_add_mod runSpec.instances.toNat n
  rw [Nat.mul_comm] at htotal
  rw [List.length_map]
  omega

namespace Placing

/-- Two groups of hosts. -/
def twoHosts : Constraint := ⟨"@hostname", .groupBy, some "2"⟩

def shop : RunSpec := .app { plainApp ⟨["shop"]⟩ ∅ with instances := 2, constraints := {twoHosts} }

def offerOf (host : String) : Mesos.Offer := ⟨host, "*", none, none, []⟩

def placedOn (host : String) (bits : BitVec 128) : Instance :=
  { Instance.scheduled shop ⟨⟨["shop"]⟩, .instance, ⟨bits⟩⟩ ⟨0⟩ with
    agentInfo := some (.ofOffer (offerOf host) "agent") }

theorem placing_shop :
    Placing (fun _ _ => false) shop [placedOn "host2" 1, placedOn "host1" 0] := by
  have hempty : Placing (fun _ _ => false) shop [] := .start rfl
  have hfirst : Placing (fun _ _ => false) shop [placedOn "host1" 0] :=
    .place hempty (i := placedOn "host1" 0) (by decide) rfl rfl (.refl _)
  exact .place hfirst (i := placedOn "host2" 1) (by decide) rfl rfl (.refl _)

theorem respected_shop :
    Even 2 1 ([placedOn "host2" 1, placedOn "host1" 0].map (placedValue "@hostname")) :=
  (respected placing_shop (c := twoHosts) (by decide)).2 2 rfl (by decide) (by decide) rfl

end Placing

end Constraints

end Marathon
