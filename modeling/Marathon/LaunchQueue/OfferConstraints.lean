import Marathon.Launcher.Constraints
import Marathon.Lib.Keyed

/-!
# Offer constraints

The constraints that Marathon sends to Mesos, so that offers it could not use are not made in
the first place. They are kept for each config of a run spec and follow the instances one by
one.
-/

namespace Marathon.LaunchQueue.OfferConstraints

open Lib Constraints Mesos

/-! ## What Mesos is sent -/

inductive Predicate
  | «exists»
  | notExists
  | textEquals (value : String)
  | textNotEquals (value : String)
  | textMatches (regex : String)
  | textNotMatches (regex : String)
deriving DecidableEq

/-- How Mesos evaluates a predicate on a text, which may be missing. -/
def Predicate.holds (regex : Regex) (value : Option String) : Predicate → Bool
  | .exists => value.isSome
  | .notExists => value.isNone
  | textEquals text => value = some text
  | textNotEquals text => value ≠ some text
  | textMatches pattern => value.any (regex pattern)
  | textNotMatches pattern => !value.any (regex pattern)

structure AttributeConstraint where
  field : String
  predicate : Predicate
deriving DecidableEq

def textValue (a : Mesos.Attribute) : Option String :=
  match a.value with
  | .text value => some value
  | _ => none

/-- The text that Mesos finds under the selector of a field. -/
def selectedText (field : String) (offer : Mesos.Offer) : Option String :=
  match selector field with
  | .hostname => some offer.hostname
  | .region => offer.region
  | .zone => offer.zone
  | .attributeName name => (offer.attributes.find? fun a => a.name = name).bind textValue

def AttributeConstraint.satisfied (regex : Regex) (offer : Mesos.Offer) (c : AttributeConstraint) : Bool :=
  c.predicate.holds regex (selectedText c.field offer)

structure ConstraintGroup where
  constraints : Finset AttributeConstraint
deriving DecidableEq

namespace ConstraintGroup

def empty : ConstraintGroup := ⟨∅⟩

def Satisfied (regex : Regex) (offer : Mesos.Offer) (group : ConstraintGroup) : Prop :=
  ∀ c ∈ group.constraints, c.satisfied regex offer = true

end ConstraintGroup

/-! ## What a constraint is translated to -/

/-- The constraint that holds whatever is placed. -/
def getAgnosticConstraint (constraint : Constraint) : AttributeConstraint :=
  let predicate : Predicate := match constraint.operator with
    | .like => .textMatches constraint.getValue
    | .unlike => .textNotMatches constraint.getValue
    | .unique => .exists
    | .groupBy => .exists
    | .maxPer => .exists
    | .cluster => if constraint.getValue = "" then .exists else .textEquals constraint.getValue
    | .is => .textEquals constraint.getValue
  ⟨constraint.field, predicate⟩

/-- A constraint that applies as soon as so many instances have brought it to life. -/
structure Induced where
  attributeConstraint : AttributeConstraint
  minInstanceCountToApply : ℤ
deriving DecidableEq

/-- The constraint that a placed instance brings to life. -/
def getInducedConstraint (constraint : Constraint) (placed : Instance) :
    Except Raised (Option Induced) :=
  match placedValue constraint.field placed with
  | some value =>
    match constraint.operator with
    | .is | .like | .unlike | .groupBy => .ok none
    | .cluster => .ok (some ⟨⟨constraint.field, .textEquals value⟩, 1⟩)
    | .unique => .ok (some ⟨⟨constraint.field, .textNotEquals value⟩, 1⟩)
    | .maxPer =>
      match parseInt constraint.getValue with
      | some maxCount => .ok (some ⟨⟨constraint.field, .textNotEquals value⟩, maxCount⟩)
      | none => .error .numberFormat
  | none => .ok none

/-- The set of what `getInducedConstraint` gives, and nothing where it throws. -/
def inducedOf (constraint : Constraint) (placed : Instance) : Finset Induced :=
  match getInducedConstraint constraint placed with
  | .ok (some induced) => {induced}
  | _ => ∅

def getInducedByInstance (i : Instance) : Except Raised (Finset Induced) :=
  if !i.isActive then .ok ∅
  else if ∃ c ∈ i.runSpec.constraints, getInducedConstraint c i = .error .numberFormat then
    .error .numberFormat
  else .ok (i.runSpec.constraints.biUnion fun c => inducedOf c i)

/-- The instance has a reservation that should be freed. -/
def shouldUnreserve (i : Instance) : Bool :=
  i.hasReservation && i.state.goal = .decommissioned && i.state.condition.isTerminal

/-! ## The state of a config -/

structure RunSpecState where
  role : Role
  constraints : Finset Constraint
  induced : Dict InstanceId (Finset Induced)
  scheduledInstances : Finset InstanceId
  instancesToUnreserve : Finset InstanceId

namespace RunSpecState

def empty : RunSpecState := ⟨"", ∅, ∅, ∅, ∅⟩

def isEmpty (s : RunSpecState) : Bool :=
  s.induced.keys = [] && s.scheduledInstances = ∅ && s.instancesToUnreserve = ∅

def setMember (ids : Finset InstanceId) (id : InstanceId) (member : Bool) : Finset InstanceId :=
  if member then insert id ids else ids.erase id

/-- `inducedByInstance` is what `getInducedByInstance` gives for the instance. -/
def willChangeOnUpdate (s : RunSpecState) (i : Instance) (inducedByInstance : Finset Induced) :
    Bool :=
  s.role ≠ i.runSpec.role || s.constraints ≠ i.runSpec.constraints ||
    (s.induced.lookup i.instanceId).getD ∅ ≠ inducedByInstance ||
    decide (i.instanceId ∈ s.scheduledInstances) != i.isScheduled ||
    decide (i.instanceId ∈ s.instancesToUnreserve) != shouldUnreserve i

def withInstanceAddedOrUpdated (s : RunSpecState) (i : Instance)
    (inducedByInstance : Finset Induced) : RunSpecState where
  role := i.runSpec.role
  constraints := i.runSpec.constraints
  induced :=
    if inducedByInstance = ∅ then s.induced.erase i.instanceId
    else s.induced.insert i.instanceId inducedByInstance
  scheduledInstances := setMember s.scheduledInstances i.instanceId i.isScheduled
  instancesToUnreserve := setMember s.instancesToUnreserve i.instanceId (shouldUnreserve i)

def withInstanceDeleted (s : RunSpecState) (id : InstanceId) : RunSpecState :=
  let s' : RunSpecState :=
    { s with
      induced := s.induced.erase id
      scheduledInstances := s.scheduledInstances.erase id
      instancesToUnreserve := s.instancesToUnreserve.erase id }
  if s'.isEmpty then empty else s'

/-- The constraints that are brought to life by as many instances as they need. -/
def effectiveInducedConstraints (s : RunSpecState) : Finset AttributeConstraint :=
  let allInducedConstraints := s.induced.values.foldr (· ∪ ·) ∅
  (allInducedConstraints.filter fun induced =>
    induced.minInstanceCountToApply ≤
      s.induced.values.countP fun inducedByInstance => induced ∈ inducedByInstance).image
    Induced.attributeConstraint

def toGroup (s : RunSpecState) : Option ConstraintGroup :=
  if s.instancesToUnreserve ≠ ∅ then some .empty
  else if s.scheduledInstances = ∅ then none
  else some ⟨s.effectiveInducedConstraints ∪ s.constraints.image getAgnosticConstraint⟩

/-- The state of a config with the instances; it takes role and constraints of the first. -/
def fromSnapshotInstances : List Instance → Except Raised RunSpecState
  | [] => .ok empty
  | head :: tail => do
    let instances := head :: tail
    let induced ← instances.mapM fun i => (getInducedByInstance i).map fun s => (i.instanceId, s)
    return {
      role := head.runSpec.role
      constraints := head.runSpec.constraints
      induced := Dict.insertAll ∅ (induced.filter fun entry => entry.2 ≠ ∅)
      scheduledInstances :=
        ((instances.filter Instance.isScheduled).map Instance.instanceId).toFinset
      instancesToUnreserve :=
        ((instances.filter shouldUnreserve).map Instance.instanceId).toFinset }

end RunSpecState

/-! ## The state of all configs -/

abbrev State := Dict RunSpecConfigRef RunSpecState

namespace State

def withSnapshot (instances : List Instance) : Except Raised State := do
  let refs := (instances.map fun i => i.runSpec.configRef).dedup
  let entries ← refs.mapM fun ref =>
    (RunSpecState.fromSnapshotInstances (instances.filter fun i => i.runSpec.configRef = ref)).map
      fun s => (ref, s)
  return Dict.insertAll ∅ entries

def withInstanceAddedOrUpdated (state : State) (i : Instance) : Except Raised State := do
  let runSpecState := (state.lookup i.runSpec.configRef).getD .empty
  let inducedByInstance ← getInducedByInstance i
  if runSpecState.willChangeOnUpdate i inducedByInstance then
    return state.insert i.runSpec.configRef
      (runSpecState.withInstanceAddedOrUpdated i inducedByInstance)
  else return state

def withInstanceDeleted (state : State) (i : Instance) : State :=
  let ref := i.runSpec.configRef
  let newRunSpecState := ((state.lookup ref).getD .empty).withInstanceDeleted i.instanceId
  if newRunSpecState.isEmpty then state.erase ref else state.insert ref newRunSpecState

def groups (state : State) (role : Role) : Finset ConstraintGroup :=
  ((state.values.filter fun s => s.role = role).filterMap RunSpecState.toGroup).toFinset

/-- The groups that are published for a role: none if the role is to be suppressed or needs
unconstrained offers. -/
def roleState (state : State) (role : Role) : Option (Finset ConstraintGroup) :=
  let groups := state.groups role
  if groups = ∅ ∨ .empty ∈ groups then none else some groups

end State

end Marathon.LaunchQueue.OfferConstraints
