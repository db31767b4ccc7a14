import Marathon.LaunchQueue.OfferConstraints
import Marathon.Lib.Future
import Marathon.Lib.Machine
import Marathon.State.RootGroup

/-!
# Usable offers

An offer that Marathon's own check of the constraints accepts should pass one of the groups of
constraints that Mesos was sent, lest Mesos filter it out. The check counts other instances as
placed than the groups do, and writes the numbers of `IS` in another way.
-/

namespace Marathon.LaunchQueue.OfferConstraints

open Lib Constraints Mesos

/-! ## Marathon's own check -/

/-- The instances that `TaskLauncherActor` passes to the matcher. -/
def reachableInstances (instances : List Instance) (runSpecId : AbsolutePathId) : List Instance :=
  instances.filter fun i =>
    i.runSpecId = runSpecId && !(i.state.condition.isLost || i.isScheduled)

/-- Those of them that `ResourceMatcher` keeps: instances of older configurations are ignored. -/
def knownInstances (instances : List Instance) (runSpec : RunSpec) : List Instance :=
  (reachableInstances instances runSpec.id).filter fun i =>
    runSpec.versionInfo.lastConfigChangeVersion ≤ i.runSpecVersion

/-- The offer meets the constraints of the run spec of `s`, with the placed instances in some
order. -/
def Accepts (regex : Regex) (instances : List Instance) (s : Instance) (offer : Mesos.Offer) : Prop :=
  ∃ known : List Instance, known.Perm (knownInstances instances s.runSpec) ∧
    ∀ c ∈ s.runSpec.constraints, meetsConstraint regex known offer c = .ok true

def TextOffer (offer : Mesos.Offer) : Prop := ∀ a ∈ offer.attributes, ∃ value, a.value = .text value

variable {regex : Regex} {known : List Instance} {offer : Mesos.Offer} {c : Constraint}

variable {i : Instance} {instances : List Instance} {seen : List RunSpec} {state state' : State}
  {f f' : Feed} {change : Change}

/-- Whether an offer meets the constraint depends on where instances are placed. -/
def comparesPlaced (c : Constraint) : Bool :=
  c.operator = .unique || c.operator = .maxPer || c.operator = .cluster && c.getValue = ""

/-- The scheduled instance `s` is seen by the groups as it is by the check: it has the role of
its run spec, `IS` is given its value as it is compared, the active instances of its config are
counted as placed, and what is clustered is placed on one value. -/
structure Agrees (instances : List Instance) (s : Instance) : Prop where
  role : s.runSpec.role = s.role
  isText : ∀ c ∈ s.runSpec.constraints, c.operator = .is → isValue c = c.getValue
  counted : ∀ i ∈ instances, i.runSpec.configRef = s.runSpec.configRef → i.isActive = true →
    ∀ c ∈ s.runSpec.constraints, comparesPlaced c = true → placedValue c.field i ≠ none →
      i.state.condition.isLost = false ∧
        s.runSpec.versionInfo.lastConfigChangeVersion ≤ i.runSpecVersion
  clustered : ∀ i ∈ instances, i.runSpec.configRef = s.runSpec.configRef → i.isActive = true →
    ∀ c ∈ s.runSpec.constraints, c.operator = .cluster →
      ∀ value, placedValue c.field i = some value →
        if c.getValue = "" then
          ∀ j ∈ knownInstances instances s.runSpec, placedValue c.field j = some value
        else value = c.getValue

section Group

variable {instances : List Instance} {s : Instance} {e : RunSpecState}
  (hagrees : Agrees instances s)
  (hplaced : ∀ id inds, e.induced.lookup id = some inds →
    ∃ i ∈ instances, i.instanceId = id ∧ i.runSpec.configRef = s.runSpec.configRef ∧
      i.runSpec.constraints = s.runSpec.constraints ∧ getInducedByInstance i = .ok inds)
  (hknown : known.Perm (knownInstances instances s.runSpec))

include hagrees hknown

include hplaced

variable (haccept : ∀ c ∈ s.runSpec.constraints, meetsConstraint regex known offer c = .ok true)
  (htext : TextOffer offer)

include haccept htext

end Group

/-! ## The state and the instances -/

/-- A run spec gets a new config version whenever its role or its constraints change. -/
def Versioned (seen : List RunSpec) : Prop :=
  ∀ spec ∈ seen, ∀ spec' ∈ seen, spec.configRef = spec'.configRef →
    spec.role = spec'.role ∧ spec.constraints = spec'.constraints

/-- The state has all instances that are scheduled, and nothing from instances that are not as
it has them; `seen` are the run specs that it has been told of. -/
structure Reflects (instances : List Instance) (seen : List RunSpec) (state : State) : Prop where
  scheduled : ∀ s ∈ instances, s.isScheduled = true →
    ∃ e, state.lookup s.runSpec.configRef = some e ∧ s.instanceId ∈ e.scheduledInstances
  induced : ∀ ref e, state.lookup ref = some e → ∀ id inds, e.induced.lookup id = some inds →
    inds ≠ ∅ ∧ ∃ i ∈ instances, i.instanceId = id ∧ i.runSpec.configRef = ref ∧
      getInducedByInstance i = .ok inds
  specs : ∀ ref e, state.lookup ref = some e → ∃ spec ∈ seen, spec.configRef = ref ∧
    e.role = spec.role ∧ e.constraints = spec.constraints
  seen : ∀ i ∈ instances, i.runSpec ∈ seen

/-- Whatever is accepted for a scheduled instance is not filtered out for its role. -/
def Sound (regex : Regex) (instances : List Instance) (state : State) : Prop :=
  ∀ s ∈ instances, s.isScheduled = true → ∀ offer, TextOffer offer →
    Accepts regex instances s offer → ∀ groups, state.roleState s.role = some groups →
      ∃ g ∈ groups, g.Satisfied regex offer

/-- The state of a config after an update of one of its instances. -/
structure Follows (e : RunSpecState) (i : Instance) (inds : Finset Induced) (e' : RunSpecState) :
    Prop where
  role : e'.role = i.runSpec.role
  constraints : e'.constraints = i.runSpec.constraints
  own : ∀ inds', e'.induced.lookup i.instanceId = some inds' →
    inds' = inds ∧ (inds' ≠ ∅ ∨ e.induced.lookup i.instanceId = some inds')
  others : ∀ id, id ≠ i.instanceId → e'.induced.lookup id = e.induced.lookup id
  scheduled : i.isScheduled = true → i.instanceId ∈ e'.scheduledInstances
  otherScheduled : ∀ id, id ≠ i.instanceId → id ∈ e.scheduledInstances → id ∈ e'.scheduledInstances

/-- What is left of the config of a deleted instance has everything but the instance. -/
theorem withInstanceDeleted_spec (e : RunSpecState) (id : InstanceId) :
    (∀ id' inds, (e.withInstanceDeleted id).induced.lookup id' = some inds →
        id' ≠ id ∧ e.induced.lookup id' = some inds) ∧
      (∀ id', id' ≠ id → id' ∈ e.scheduledInstances →
        id' ∈ (e.withInstanceDeleted id).scheduledInstances) ∧
        ((e.withInstanceDeleted id).isEmpty = false →
          (e.withInstanceDeleted id).role = e.role ∧
            (e.withInstanceDeleted id).constraints = e.constraints) := by
  unfold RunSpecState.withInstanceDeleted
  dsimp only
  split_ifs with hempty
  · refine ⟨fun id' inds h => (by cases h), fun id' hne h => ?_, fun h => (by cases h)⟩
    rw [RunSpecState.isEmpty, Bool.and_eq_true, Bool.and_eq_true, decide_eq_true_eq,
      decide_eq_true_eq] at hempty
    have hnobody : e.scheduledInstances.erase id = ∅ := hempty.1.2
    have hmem : id' ∈ e.scheduledInstances.erase id := Finset.mem_erase.mpr ⟨hne, h⟩
    rw [hnobody] at hmem
    exact absurd hmem (Finset.notMem_empty _)
  · exact ⟨fun id' inds h => Dict.lookup_erase_eq_some.mp h,
      fun id' hne h => Finset.mem_erase.mpr ⟨hne, h⟩, fun _ => ⟨rfl, rfl⟩⟩

theorem lookup_withInstanceDeleted_of_ne (state : State) (i : Instance) {ref : RunSpecConfigRef}
    (h : ref ≠ i.runSpec.configRef) :
    (state.withInstanceDeleted i).lookup ref = state.lookup ref := by
  unfold State.withInstanceDeleted
  dsimp only
  split_ifs
  · exact AList.lookup_erase_ne h
  · exact AList.lookup_insert_ne h

theorem lookup_withInstanceDeleted_eq_some {e' : RunSpecState} :
    (state.withInstanceDeleted i).lookup i.runSpec.configRef = some e' ↔
      e' = ((state.lookup i.runSpec.configRef).getD .empty).withInstanceDeleted i.instanceId ∧
        e'.isEmpty = false := by
  unfold State.withInstanceDeleted
  dsimp only
  split_ifs with hempty
  · rw [AList.lookup_erase]
    constructor
    · intro h
      cases h
    · rintro ⟨rfl, h⟩
      rw [hempty] at h
      cases h
  · rw [AList.lookup_insert]
    constructor
    · intro h
      cases h
      exact ⟨rfl, Bool.eq_false_iff.mpr hempty⟩
    · rintro ⟨rfl, -⟩
      rfl

/-- The instances of the tracker, the state that follows them, and the run specs they have had. -/
structure Feed where
  instances : Keyed Instance.instanceId
  state : State
  seen : List RunSpec

inductive Change
  | snapshot (instances : List Instance)
  | updated (i : Instance)
  | deleted (id : InstanceId)

namespace Change

def apply (instances : Keyed Instance.instanceId) : Change → Keyed Instance.instanceId
  | snapshot instances' => instances'.foldl Keyed.insert ∅
  | updated i => instances.insert i
  | deleted id => instances.erase id

def runSpecs : Change → List RunSpec
  | snapshot instances => instances.map Instance.runSpec
  | updated i => [i.runSpec]
  | deleted _ => []

/-- The state after the change, unless something is thrown. -/
def follow (feed : Feed) : Change → Option State
  | snapshot instances =>
    if (instances.map Instance.instanceId).Nodup then (State.withSnapshot instances).toOption
    else none
  | updated i => (feed.state.withInstanceAddedOrUpdated i).toOption
  | deleted id => (feed.instances.lookup id).map feed.state.withInstanceDeleted

end Change

def feed : Machine Feed Change where
  Init f := f = ⟨∅, ∅, []⟩
  step f change := (change.follow f).map fun state =>
    ⟨change.apply f.instances, state, change.runSpecs ++ f.seen⟩

/-- The facts that tame steps keep. -/
structure Kept (f : Feed) : Prop where
  reflects : Reflects f.instances.values f.seen f.state
  versioned : Versioned f.seen
  agrees : ∀ s ∈ f.instances.values, s.isScheduled = true → Agrees f.instances.values s

end Marathon.LaunchQueue.OfferConstraints

namespace Marathon.LaunchQueue.OfferConstraints.Racks

open Lib Constraints Mesos

/-! ## One instance for each rack -/

def uniqueRack : Constraint := ⟨"rack", .unique, none⟩

def runSpec : RunSpec := .app { plainApp ⟨["shop"]⟩ ∅ with constraints := {uniqueRack} }

def rack (name : String) : List Mesos.Attribute := [⟨"rack", .text name⟩]

/-- An instance on an agent of the rack `r1`. -/
def placed (condition : Condition) : Instance :=
  { Instance.scheduled runSpec ⟨⟨["shop"]⟩, .instance, ⟨0⟩⟩ ⟨0⟩ with
    agentInfo := some ⟨"agent", none, none, none, rack "r1"⟩
    state := ⟨condition, ⟨0⟩, none, none, .running⟩ }

def waiting : Instance := Instance.scheduled runSpec ⟨⟨["shop"]⟩, .instance, ⟨1⟩⟩ ⟨0⟩

def offerOf (name : String) : Mesos.Offer := ⟨"host", "*", none, none, rack name⟩

def otherRack : ConstraintGroup := ⟨{⟨"rack", .textNotEquals "r1"⟩, ⟨"rack", .exists⟩}⟩

def start : Feed := ⟨∅, ∅, []⟩

end Marathon.LaunchQueue.OfferConstraints.Racks
