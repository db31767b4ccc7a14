import Marathon.Instance.Instance
import Marathon.Lib.Keyed

/-!
# What scaling proposes

`ScalingProposition.propose` chooses which instances of a run spec are decommissioned and how many
are started, so that as many instances have the goal to run as the run spec wants.
-/

namespace Marathon

open Lib

def KillSelection.apply : KillSelection → Timestamp → Timestamp → Bool
  | youngestFirst, a, b => b < a
  | oldestFirst, a, b => a < b

def RunSpec.killSelection : RunSpec → KillSelection
  | app definition => definition.killSelection
  | pod definition => definition.killSelection

/-- A hash map of instances by their ids. -/
abbrev InstancesById := Keyed Instance.instanceId

namespace InstancesById

/-- An order in which a hash map goes through its values. -/
structure Order where
  list : InstancesById → List Instance
  perm : ∀ instances, (list instances).Perm instances.values

/-- `toMap` of the instances under their ids. -/
def ofInstances (instances : List Instance) : InstancesById := instances.foldl .insert ∅

end InstancesById

structure ScalingProposition where
  toDecommission : List Instance
  toStart : ℤ

namespace ScalingProposition

/-- Tasks with lower weight should be killed first. -/
def weight : Condition → ℕ
  | .unreachable => 1
  | .staging => 2
  | .starting => 3
  | .running => 4
  | _ => 5

def stagedAt (now : Timestamp) (i : Instance) : Timestamp :=
  ((i.tasks.map (·.status.stagedAt)).max?).getD now

/-- Whether `a` comes before `b`. -/
def sortByConditionAndDate (now : Timestamp) (select : KillSelection) (a b : Instance) : Bool :=
  let weightA := weight a.state.condition
  let weightB := weight b.state.condition
  if weightA < weightB then true
  else if weightA > weightB then false
  else if a.state.condition = .staging && b.state.condition = .staging then
    select.apply (stagedAt now a) (stagedAt now b)
  else if a.state.condition = .starting && b.state.condition = .starting then
    select.apply a.state.since b.state.since
  else
    match a.state.activeSince, b.state.activeSince with
    | none, some _ => true
    | some _, none => false
    | some left, some right => select.apply left right
    | none, none => true

/-- A stable sort. -/
def sortWith (lt : Instance → Instance → Bool) (instances : List Instance) : List Instance :=
  instances.insertionSort fun a b => !lt b a

def propose (order : InstancesById.Order) (now : Timestamp) (instances toDecommission : List Instance)
    (meetConstraints : List Instance → ℤ → List Instance) (scaleTo : ℤ)
    (killSelection : KillSelection) : ScalingProposition :=
  let instancesGoalRunning := InstancesById.ofInstances <| instances.filter fun i =>
    i.state.goal = .running && i.state.condition != .unreachableInactive
  let toDecommissionMap := InstancesById.ofInstances toDecommission
  let sentenced (i : Instance) : Bool := (toDecommissionMap.lookup i.instanceId).isSome
  let sentencedAndRunningMap :=
    InstancesById.ofInstances (instancesGoalRunning.values.filter sentenced)
  let notSentencedAndRunningMap :=
    InstancesById.ofInstances (instancesGoalRunning.values.filter fun i => !sentenced i)
  let decommissionCount : ℤ :=
    max (instancesGoalRunning.values.length - scaleTo) sentencedAndRunningMap.values.length
  -- the sentenced ones are considered already killed
  let killToMeetConstraints := meetConstraints (order.list notSentencedAndRunningMap)
    (decommissionCount - sentencedAndRunningMap.values.length)
  let rest := order.list <|
    killToMeetConstraints.foldl (fun map i => map.erase i.instanceId) notSentencedAndRunningMap
  let orderedDecommissionCandidates := order.list sentencedAndRunningMap ++ killToMeetConstraints ++
    sortWith (sortByConditionAndDate now killSelection) rest
  { toDecommission := orderedDecommissionCandidates.take decommissionCount.toNat
    toStart := scaleTo - instancesGoalRunning.values.length + decommissionCount }

end ScalingProposition

end Marathon
