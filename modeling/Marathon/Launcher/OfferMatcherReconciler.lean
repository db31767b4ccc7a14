import Marathon.Group.GroupManagerImpl
import Marathon.Instance.InstanceTracker
import Marathon.Launcher.InstanceOp
import Marathon.Launcher.ResourceMatcher

/-!
# The offer matcher that reconciles

Resources of an offer that are labelled for an instance are freed when the instance is unknown, when
its run spec is, or when it is decommissioned and over. Whether they are is asked of the tracker and
of the group repository, one independently of the other.
-/

namespace Marathon.OfferMatcherReconciler

open Lib Mesos

/-- A resource of an offer, with what `TaskLabels.instanceIdForResource` reads off its labels. -/
structure LabelledResource where
  resource : Resource
  instanceId : Option InstanceId
deriving DecidableEq

def resourcesByInstanceId (resources : List LabelledResource) : Dict InstanceId (List Resource) :=
  Dict.ofBindings <| (resources.filterMap LabelledResource.instanceId).map fun id =>
    (id, (resources.filter fun r => r.instanceId = some id).map LabelledResource.resource)

/-- There is an app or a pod for the instance. -/
def hasRunSpec (rootGroup : RootGroup) (instanceId : InstanceId) : Bool :=
  (rootGroup.app instanceId.runSpecId).isSome || (rootGroup.pod instanceId.runSpecId).isSome

def spurious (instancesBySpec : InstancesBySpec) (rootGroup : RootGroup) (instanceId : InstanceId) :
    Bool :=
  (instancesBySpec.lookup instanceId).isNone || !hasRunSpec rootGroup instanceId

def terminalResident (instancesBySpec : InstancesBySpec) (id : InstanceId) : Bool :=
  (instancesBySpec.lookup id).all fun i =>
    i.reservation.isSome && decide (i.state.goal = .decommissioned) && i.state.condition.isTerminal

/-- The operations, each with the resources that it frees. -/
def createInstanceOps (instancesBySpec : InstancesBySpec) (rootGroup : RootGroup)
    (resourcesByInstanceId : Dict InstanceId (List Resource)) : List (InstanceOp × List Resource) :=
  resourcesByInstanceId.bindings.filterMap fun b =>
    if spurious instancesBySpec rootGroup b.1 then
      some (.unreserveAndDestroyVolumes (.forceExpunge b.1) (instancesBySpec.lookup b.1), b.2)
    else if terminalResident instancesBySpec b.1 then
      some (.unreserveAndDestroyVolumes (.unreserve b.1) (instancesBySpec.lookup b.1), b.2)
    else none

/-- The tracker knows the instance, and it is not over. -/
def Live (instancesBySpec : InstancesBySpec) (id : InstanceId) : Prop :=
  ∃ i, instancesBySpec.lookup id = some i ∧
    ¬(i.state.goal = .decommissioned ∧ i.state.condition.isTerminal = true)

/-- Only what is not live, or has no run spec, is freed. -/
theorem mem_createInstanceOps {instancesBySpec : InstancesBySpec} {rootGroup : RootGroup}
    {resources : Dict InstanceId (List Resource)} {op : InstanceOp × List Resource}
    (h : op ∈ createInstanceOps instancesBySpec rootGroup resources) :
    op.1.instanceId ∈ resources.keys ∧
      (Live instancesBySpec op.1.instanceId → hasRunSpec rootGroup op.1.instanceId = false) := by
  obtain ⟨⟨id, freed⟩, hb, hop⟩ := List.mem_filterMap.mp h
  have hkey : id ∈ resources.keys := by
    rw [← Dict.map_fst_bindings]
    exact List.mem_map.mpr ⟨(id, freed), hb, rfl⟩
  dsimp only at hop
  split_ifs at hop with hspurious hterminal
  · cases hop
    refine ⟨hkey, ?_⟩
    rintro ⟨i, hi, -⟩
    have hi : instancesBySpec.lookup id = some i := hi
    rw [spurious, hi, Option.isNone_some, Bool.false_or, Bool.not_eq_true'] at hspurious
    exact hspurious
  · cases hop
    refine ⟨hkey, ?_⟩
    rintro ⟨i, hi, hlive⟩
    have hi : instancesBySpec.lookup id = some i := hi
    rw [terminalResident, hi, Option.all_some] at hterminal
    simp only [Bool.and_eq_true, decide_eq_true_eq] at hterminal
    exact absurd ⟨hterminal.1.2, hterminal.2⟩ hlive

end Marathon.OfferMatcherReconciler
